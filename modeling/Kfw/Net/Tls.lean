import Kfw.Common.StringRef
import Kfw.Lib.Run

open exec Result

namespace kfw.net

def MBEDTLS_ERR_SSL_BAD_INPUT_DATA : Int := -0x7100
def MBEDTLS_ERR_SSL_WANT_READ : Int := -0x6900
def MBEDTLS_ERR_SSL_WANT_WRITE : Int := -0x6880

/-- Where the four mbedtls contexts of a `TlsStream` are in their life. Those that are
set up have a pointer to the base stream, which may be null. -/
inductive MbedtlsContexts where
  | raw
  | initialised
  | set_up (p_bio : Bool)
  | freed
  deriving DecidableEq

/-- A `TlsStream`: its two flags, whether it has a base stream, and its mbedtls
contexts. -/
structure TlsStream where
  m_is_created : Bool := false
  m_is_opened_session : Bool := false
  m_base_stream : Bool := false
  m_contexts : MbedtlsContexts := .raw
  deriving DecidableEq

structure X509Certificate where
  m_is_created : Bool := false

/-- What the mbedtls calls of `authenticate_as_client` answer if they are made;
`handshake` are the answers of the successive calls of `mbedtls_ssl_handshake`. -/
structure TlsAnswers where
  ctr_drbg_seed : Int := 0
  ssl_config_defaults : Int := 0
  ssl_setup : Int := 0
  ssl_set_hostname : Int := 0
  handshake : List Int := [0]

/-- The loop over `mbedtls_ssl_handshake`, which goes on as long as the answer is that
it wants to read or to write. -/
def ssl_handshake : List Int → Exec Int
  | [] => div
  | ssl_ret :: answers =>
    if ssl_ret ≠ 0 ∧ (ssl_ret = MBEDTLS_ERR_SSL_WANT_READ ∨ ssl_ret = MBEDTLS_ERR_SSL_WANT_WRITE) then
      ssl_handshake answers
    else ok ssl_ret

namespace TlsStream

def create (self : TlsStream) (base_stream : Bool) : ret_t × TlsStream :=
  if self.m_is_created then (kEInvalidOperation, self)
  else (kOk, { self with m_base_stream := base_stream, m_contexts := .initialised, m_is_created := true })

/-- The flag of the session is not touched. -/
def dispose (self : TlsStream) : TlsStream :=
  if ¬ self.m_is_created then self
  else { self with m_contexts := .freed, m_base_stream := false, m_is_created := false }

/-- A call of the base stream, if a session is open. -/
def call_base (self : TlsStream) : Exec Unit :=
  if ¬ self.m_is_opened_session then ok ()
  else if ¬ self.m_base_stream then fail .invalid_access
  else ok ()

def flush (self : TlsStream) : Exec Unit := self.call_base

def close (self : TlsStream) : Exec Unit := self.call_base

/-- `mbedtls_ssl_read` and `mbedtls_ssl_write`, where `len` is what they come to on
contexts that are set up: the number of bytes transferred or an error. Without a
configuration they return an error at once. The fault stands for the use of contexts that
are freed or were never initialised, or of a base stream that is null. The library zeroes a
context that it frees, so that the call itself answers with the same error. -/
def ssl_transfer (self : TlsStream) (len : Int) : Exec Int :=
  match self.m_contexts with
  | .initialised => ok MBEDTLS_ERR_SSL_BAD_INPUT_DATA
  | .set_up true => ok len
  | _ => fail .invalid_access

/-- The common body of `read` and `write`. -/
def transfer (self : TlsStream) (len : Int) : Exec (RetVal UInt32) :=
  if ¬ self.m_is_opened_session then ok ⟨kEInvalidOperation, 0⟩
  else do
    let len ← self.ssl_transfer len
    if len ≥ 0 then ok ⟨kOk, len.toNat.toUInt32⟩ else ok ⟨kEUnknown, 0⟩

/-- `len` is the answer of `mbedtls_ssl_read`. -/
def read (self : TlsStream) (len : Int) : Exec (RetVal UInt32) := self.transfer len

/-- `len` is the answer of `mbedtls_ssl_write`. -/
def write (self : TlsStream) (len : Int) : Exec (RetVal UInt32) := self.transfer len

/-- Neither `m_is_created` nor the base stream is looked at. -/
def authenticate_as_client (self : TlsStream) (target_host : ConstStringRef) (ca_cert : Option X509Certificate)
    (answers : TlsAnswers) : Exec (ret_t × TlsStream) :=
  if target_host.m_length > 31 then ok (kEArgument, self)
  else if (ca_cert.elim false X509Certificate.m_is_created) = false then ok (kEArgument, self)
  else if self.m_is_opened_session then ok (kEInvalidOperation, self)
  else if answers.ctr_drbg_seed ≠ 0 then ok (kEUnknown, self)
  else if answers.ssl_config_defaults ≠ 0 then ok (kEUnknown, self)
  else if answers.ssl_setup ≠ 0 then ok (kEUnknown, self)
  -- copying the host name to a buffer of 32 bytes
  else if target_host.m_data.length < target_host.m_length.toNat then fail .invalid_access
  else if answers.ssl_set_hostname ≠ 0 then ok (kEUnknown, self)
  else do
    let self := { self with m_contexts := .set_up self.m_base_stream }
    let ssl_ret ← ssl_handshake answers.handshake
    if ssl_ret ≠ 0 then ok (kEUnknown, self)
    else ok (kOk, { self with m_is_opened_session := true })

end TlsStream

/-- The answers of `mbedtls_ssl_handshake` are that it wants to read or to write, any
number of times, and then success. -/
def HandshakeSucceeds (answers : List Int) : Prop :=
  ∃ waits rest, answers = waits ++ 0 :: rest ∧
    ∀ ssl_ret ∈ waits, ssl_ret = MBEDTLS_ERR_SSL_WANT_READ ∨ ssl_ret = MBEDTLS_ERR_SSL_WANT_WRITE

theorem ssl_handshake_eq_zero_iff (answers : List Int) :
    ssl_handshake answers = ok 0 ↔ HandshakeSucceeds answers := by
  induction answers with
  | nil =>
    refine iff_of_false (by simp [ssl_handshake]) ?_
    rintro ⟨waits, rest, hanswers, -⟩
    simp at hanswers
  | cons ssl_ret answers ih =>
    by_cases hwait : ssl_ret = MBEDTLS_ERR_SSL_WANT_READ ∨ ssl_ret = MBEDTLS_ERR_SSL_WANT_WRITE
    · have hne : ssl_ret ≠ 0 := by
        rcases hwait with rfl | rfl <;> decide
      rw [ssl_handshake, if_pos ⟨hne, hwait⟩, ih]
      constructor
      · rintro ⟨waits, rest, rfl, hwaits⟩
        exact ⟨ssl_ret :: waits, rest, rfl, by simpa [hwait] using hwaits⟩
      · rintro ⟨_ | ⟨first, waits⟩, rest, hanswers, hwaits⟩
        · exact absurd (List.cons.inj hanswers).1 hne
        · obtain ⟨rfl, rfl⟩ := List.cons.inj hanswers
          exact ⟨waits, rest, rfl, fun other hother => hwaits other (List.mem_cons_of_mem _ hother)⟩
    · rw [ssl_handshake, if_neg (fun hand => hwait hand.2), ok.injEq]
      constructor
      · rintro rfl
        exact ⟨[], answers, rfl, by simp⟩
      · rintro ⟨_ | ⟨first, waits⟩, rest, hanswers, hwaits⟩
        · exact (List.cons.inj hanswers).1
        · obtain ⟨rfl, rfl⟩ := List.cons.inj hanswers
          exact absurd (hwaits ssl_ret List.mem_cons_self) hwait

/-- All that `authenticate_as_client` depends on, the state of the session apart, lets
it succeed. -/
structure AuthenticateSucceeds (target_host : ConstStringRef) (ca_cert : Option X509Certificate)
    (answers : TlsAnswers) : Prop where
  length_le : target_host.m_length.toNat ≤ 31
  readable : target_host.m_length.toNat ≤ target_host.m_data.length
  ca_cert_created : ∃ cert, ca_cert = some cert ∧ cert.m_is_created = true
  seeded : answers.ctr_drbg_seed = 0
  configured : answers.ssl_config_defaults = 0
  set_up : answers.ssl_setup = 0
  named : answers.ssl_set_hostname = 0
  shaken : HandshakeSucceeds answers.handshake

namespace TlsStream

variable {self next : TlsStream} {target_host : ConstStringRef} {ca_cert : Option X509Certificate}
  {answers : TlsAnswers}

theorem authenticate_succeeds (hclosed : self.m_is_opened_session = false)
    (h : AuthenticateSucceeds target_host ca_cert answers) :
    self.authenticate_as_client target_host ca_cert answers =
      ok (kOk, { self with m_is_opened_session := true, m_contexts := .set_up self.m_base_stream }) := by
  obtain ⟨cert, rfl, hcert⟩ := h.ca_cert_created
  have hlength : ¬ target_host.m_length > 31 := by
    rw [gt_iff_lt, UInt32.lt_iff_toNat_lt]
    exact Nat.not_lt.mpr h.length_le
  have hreadable : ¬ target_host.m_data.length < target_host.m_length.toNat := Nat.not_lt.mpr h.readable
  simp [authenticate_as_client, hlength, hcert, hclosed, h.seeded, h.configured, h.set_up, hreadable, h.named,
    (ssl_handshake_eq_zero_iff _).mpr h.shaken]

/-- What an authentication comes to: a session is opened, or it fails and the session
and the base stream are as they were. -/
theorem authenticate_cases {r : ret_t}
    (h : self.authenticate_as_client target_host ca_cert answers = ok (r, next)) :
    (r = kOk ∧ self.m_is_opened_session = false ∧ AuthenticateSucceeds target_host ca_cert answers) ∨
      r ≠ kOk ∧ (self.m_is_opened_session = true → next = self) ∧
        next = { self with m_contexts := next.m_contexts } := by
  have hfailed : ∀ error : ret_t, error ≠ kOk → ok (error, self) = (ok (r, next) : Exec _) →
      r ≠ kOk ∧ (self.m_is_opened_session = true → next = self) ∧
        next = { self with m_contexts := next.m_contexts } := by
    rintro error herror hresult
    cases hresult
    exact ⟨herror, fun _ => rfl, rfl⟩
  have hargument : kEArgument ≠ kOk := by decide
  have hoperation : kEInvalidOperation ≠ kOk := by decide
  have hunknown : kEUnknown ≠ kOk := by decide
  unfold authenticate_as_client at h
  by_cases hlength : target_host.m_length > 31
  · rw [if_pos hlength] at h
    exact .inr (hfailed _ hargument h)
  rw [if_neg hlength] at h
  by_cases hcert : (ca_cert.elim false X509Certificate.m_is_created) = false
  · rw [if_pos hcert] at h
    exact .inr (hfailed _ hargument h)
  rw [if_neg hcert] at h
  by_cases hclosed : self.m_is_opened_session = true
  · rw [if_pos hclosed] at h
    exact .inr (hfailed _ hoperation h)
  rw [if_neg hclosed] at h
  by_cases hseed : answers.ctr_drbg_seed ≠ 0
  · rw [if_pos hseed] at h
    exact .inr (hfailed _ hunknown h)
  rw [if_neg hseed] at h
  by_cases hconfig : answers.ssl_config_defaults ≠ 0
  · rw [if_pos hconfig] at h
    exact .inr (hfailed _ hunknown h)
  rw [if_neg hconfig] at h
  by_cases hsetup : answers.ssl_setup ≠ 0
  · rw [if_pos hsetup] at h
    exact .inr (hfailed _ hunknown h)
  rw [if_neg hsetup] at h
  by_cases hreadable : target_host.m_data.length < target_host.m_length.toNat
  · rw [if_pos hreadable] at h
    cases h
  rw [if_neg hreadable] at h
  by_cases hnamed : answers.ssl_set_hostname ≠ 0
  · rw [if_pos hnamed] at h
    exact .inr (hfailed _ hunknown h)
  rw [if_neg hnamed] at h
  obtain ⟨ssl_ret, hshake, hrest⟩ := bind_eq_ok_iff.mp h
  split at hrest
  · cases hrest
    exact .inr ⟨hunknown, fun hopened => absurd hopened hclosed, rfl⟩
  · rename_i hzero
    cases hrest
    rw [not_not.mp hzero] at hshake
    refine .inl ⟨rfl, by simpa using hclosed, ?_⟩
    exact {
      length_le := by
        rw [gt_iff_lt, UInt32.lt_iff_toNat_lt] at hlength
        exact Nat.not_lt.mp hlength
      readable := Nat.not_lt.mp hreadable
      ca_cert_created := by
        cases ca_cert with
        | none => exact absurd rfl hcert
        | some cert => exact ⟨cert, rfl, by simpa using hcert⟩
      seeded := not_not.mp hseed
      configured := not_not.mp hconfig
      set_up := not_not.mp hsetup
      named := not_not.mp hnamed
      shaken := (ssl_handshake_eq_zero_iff _).mp hshake }

end TlsStream

inductive TlsCall where
  | create (base_stream : Bool)
  | authenticate_as_client (target_host : ConstStringRef) (ca_cert : Option X509Certificate)
      (answers : TlsAnswers)
  | read (len : Int)
  | write (len : Int)
  | flush
  | close
  | dispose

/-- A `TlsStream`, and whether an authentication succeeded since it was last created or
disposed of. -/
structure TlsSession where
  stream : TlsStream := {}
  authenticated : Bool := false

namespace TlsSession

def step (state : TlsSession) : TlsCall → Exec TlsSession
  | .create base_stream =>
    let (r, stream) := state.stream.create base_stream
    ok { stream, authenticated := state.authenticated ∧ r ≠ kOk }
  | .authenticate_as_client target_host ca_cert answers => do
    let (r, stream) ← state.stream.authenticate_as_client target_host ca_cert answers
    ok { stream, authenticated := state.authenticated ∨ r = kOk }
  | .read len => do
    let _ ← state.stream.read len
    ok state
  | .write len => do
    let _ ← state.stream.write len
    ok state
  | .flush => do
    state.stream.flush
    ok state
  | .close => do
    state.stream.close
    ok state
  | .dispose => ok { stream := state.stream.dispose, authenticated := false }

/-- An open session implies that the stream is created and has a base stream. -/
def Sound (state : TlsSession) : Prop :=
  state.stream.m_is_opened_session = true → state.stream.m_is_created = true ∧ state.stream.m_base_stream = true

/-- The call touches no freed mbedtls context and no base stream that is null. -/
def Untouching (state : TlsSession) : TlsCall → Prop
  | .read len => state.stream.read len ≠ fail .invalid_access
  | .write len => state.stream.write len ≠ fail .invalid_access
  | .flush => state.stream.flush ≠ fail .invalid_access
  | .close => state.stream.close ≠ fail .invalid_access
  | _ => True

/-- Before the authentication a read or write reports `kEInvalidOperation`. -/
def Guarded (state : TlsSession) : TlsCall → Prop
  | .read len => state.authenticated = false → state.stream.read len = ok ⟨kEInvalidOperation, 0⟩
  | .write len => state.authenticated = false → state.stream.write len = ok ⟨kEInvalidOperation, 0⟩
  | _ => True

/-- No open session is disposed of, and no authentication succeeds on a stream without
a base stream. -/
def Careful (state : TlsSession) : TlsCall → Prop
  | .dispose => state.stream.m_is_opened_session = false
  | .authenticate_as_client target_host ca_cert answers =>
    state.stream.m_is_opened_session = false → AuthenticateSucceeds target_host ca_cert answers →
      state.stream.m_base_stream = true
  | _ => True

/-- What careful calls keep: besides soundness, that the contexts of an open session
are set up with the base stream, and that sessions are opened by authentication only. -/
structure Secure (state : TlsSession) : Prop where
  sound : state.Sound
  contexts : state.stream.m_is_opened_session = true → state.stream.m_contexts = .set_up true
  created : state.stream.m_base_stream = true → state.stream.m_is_created = true
  authenticated : state.authenticated = state.stream.m_is_opened_session

variable {state next : TlsSession} {call : TlsCall}

theorem Secure.create (h : state.Secure) (base_stream : Bool)
    (hnext : state.step (.create base_stream) = ok next) : next.Secure := by
  cases hcreated : state.stream.m_is_created with
  | true =>
    have hother : kEInvalidOperation ≠ kOk := by decide
    have hsame : next = state := by
      simpa [step, TlsStream.create, hcreated, hother] using hnext.symm
    rwa [hsame]
  | false =>
    have hclosed : state.stream.m_is_opened_session = false := by
      by_contra hopened
      exact absurd (h.sound (by simpa using hopened)).1 (by simp [hcreated])
    have hauthenticated := h.authenticated
    rw [hclosed] at hauthenticated
    simp only [step, TlsStream.create, hcreated, Bool.false_eq_true, if_false, ok.injEq] at hnext
    subst hnext
    constructor <;> simp [Sound, hclosed, hauthenticated]

theorem Secure.authenticate (h : state.Secure) {target_host : ConstStringRef} {ca_cert : Option X509Certificate}
    {answers : TlsAnswers} (hcareful : state.Careful (.authenticate_as_client target_host ca_cert answers))
    (hnext : state.step (.authenticate_as_client target_host ca_cert answers) = ok next) : next.Secure := by
  obtain ⟨⟨r, stream⟩, hauth, hresult⟩ := bind_eq_ok_iff.mp hnext
  cases hresult
  rcases TlsStream.authenticate_cases hauth with ⟨rfl, hclosed, hsucceeds⟩ | ⟨hr, hopened, hsame⟩
  · have hbase := hcareful hclosed hsucceeds
    have hcreated := h.created hbase
    rw [TlsStream.authenticate_succeeds hclosed hsucceeds, ok.injEq, Prod.mk.injEq] at hauth
    obtain ⟨-, rfl⟩ := hauth
    constructor <;> simp [Sound, hbase, hcreated]
  · have hsession : stream.m_is_opened_session = state.stream.m_is_opened_session := by rw [hsame]
    have hbase : stream.m_base_stream = state.stream.m_base_stream := by rw [hsame]
    have hcreated : stream.m_is_created = state.stream.m_is_created := by rw [hsame]
    refine ⟨?_, ?_, ?_, ?_⟩
    · simpa only [Sound, hsession, hbase, hcreated] using h.sound
    · intro hopen
      have hkept : state.stream.m_is_opened_session = true := hsession ▸ hopen
      rw [hopened hkept]
      exact h.contexts hkept
    · simpa only [hbase, hcreated] using h.created
    · simpa [hr, hsession] using h.authenticated

theorem Secure.dispose (h : state.Secure) (hclosed : state.stream.m_is_opened_session = false)
    (hnext : state.step .dispose = ok next) : next.Secure := by
  cases hcreated : state.stream.m_is_created with
  | true =>
    simp only [step, TlsStream.dispose, hcreated, not_true, if_false, ok.injEq] at hnext
    subst hnext
    constructor <;> simp [Sound, hclosed]
  | false =>
    have hbase : state.stream.m_base_stream = false := by
      by_contra hbase
      exact absurd (h.created (by simpa using hbase)) (by simp [hcreated])
    simp only [step, TlsStream.dispose, hcreated, Bool.false_eq_true, not_false_eq_true, if_true,
      ok.injEq] at hnext
    subst hnext
    constructor <;> simp [Sound, hclosed, hbase]

theorem Secure.step (h : state.Secure) (hcareful : state.Careful call) (hnext : state.step call = ok next) :
    next.Secure := by
  -- a call that only uses the stream leaves the state as it is
  have hkept : ∀ {α : Type} (result : Exec α), (result >>= fun _ => ok state) = ok next → next.Secure := by
    intro α result hresult
    obtain ⟨_, -, hsame⟩ := bind_eq_ok_iff.mp hresult
    cases hsame
    exact h
  cases call with
  | create base_stream => exact h.create base_stream hnext
  | authenticate_as_client target_host ca_cert answers => exact h.authenticate hcareful hnext
  | read len => exact hkept _ hnext
  | write len => exact hkept _ hnext
  | flush => exact hkept _ hnext
  | close => exact hkept _ hnext
  | dispose => exact h.dispose hcareful hnext

theorem Secure.transfer_ne_fail (h : state.Secure) (len : Int) :
    state.stream.transfer len ≠ fail .invalid_access := by
  cases hopened : state.stream.m_is_opened_session with
  | false => simp [TlsStream.transfer, hopened]
  | true =>
    by_cases hlen : len ≥ 0
    · simp [TlsStream.transfer, hopened, TlsStream.ssl_transfer, h.contexts hopened, hlen]
    · simp [TlsStream.transfer, hopened, TlsStream.ssl_transfer, h.contexts hopened, hlen]

theorem Secure.call_base_ne_fail (h : state.Secure) : state.stream.call_base ≠ fail .invalid_access := by
  cases hopened : state.stream.m_is_opened_session with
  | false => simp [TlsStream.call_base, hopened]
  | true => simp [TlsStream.call_base, hopened, (h.sound hopened).2]

theorem Secure.untouching (h : state.Secure) (call : TlsCall) : state.Untouching call := by
  cases call with
  | read len => exact h.transfer_ne_fail len
  | write len => exact h.transfer_ne_fail len
  | flush => exact h.call_base_ne_fail
  | close => exact h.call_base_ne_fail
  | _ => exact trivial

theorem Secure.transfer_guarded (h : state.Secure) (len : Int) (hnot : state.authenticated = false) :
    state.stream.transfer len = ok ⟨kEInvalidOperation, 0⟩ := by
  have hclosed := h.authenticated.symm.trans hnot
  simp [TlsStream.transfer, hclosed]

theorem Secure.guarded (h : state.Secure) (call : TlsCall) : state.Guarded call := by
  cases call with
  | read len => exact h.transfer_guarded len
  | write len => exact h.transfer_guarded len
  | _ => exact trivial

/-- A call that is not careful leaves an open session without a base stream. -/
theorem Secure.breaks (h : state.Secure) (hnot : ¬ state.Careful call) :
    ∃ next, state.step call = ok next ∧ ¬ next.Sound := by
  cases call with
  | dispose =>
    have hopened : state.stream.m_is_opened_session = true := by simpa [Careful] using hnot
    have hcreated := (h.sound hopened).1
    refine ⟨_, rfl, ?_⟩
    simp [Sound, TlsStream.dispose, hcreated, hopened]
  | authenticate_as_client target_host ca_cert answers =>
    simp only [Careful, Classical.not_imp] at hnot
    obtain ⟨hclosed, hsucceeds, hbase⟩ := hnot
    refine ⟨_, by rw [TlsSession.step, TlsStream.authenticate_succeeds hclosed hsucceeds]; rfl, ?_⟩
    simp [Sound, hbase]
  | _ => exact absurd trivial hnot

/-- Sessions are sound, no call touches what is freed or null, and reads and writes
wait for the authentication, exactly in the runs that dispose of no open session and
in which no authentication succeeds without a base stream. -/
theorem tls_session_safe_iff (calls : List TlsCall) :
    (Always step Sound {} calls ∧ Along step Untouching {} calls ∧ Along step Guarded {} calls) ↔
      Along step Careful {} calls := by
  have hstart : Secure {} := by constructor <;> simp [Sound]
  rw [always_iff_along, and_iff_right hstart.sound, ← along_and, ← along_and]
  refine Along.iff_of_step Secure ?_ (fun _ _ _ hstate _ hcareful hnext => hstate.step hcareful hnext) hstart
    (.of_forall (P := fun _ _ => True) fun _ _ _ => trivial)
  intro state call hstate _
  constructor
  · intro hholds
    by_contra hnot
    obtain ⟨next, hnext, hbroken⟩ := hstate.breaks hnot
    exact hbroken (hholds.1 next hnext)
  · intro hcareful
    exact ⟨fun next hnext => (hstate.step hcareful hnext).sound, hstate.untouching call, hstate.guarded call⟩

/-- An authentication in which every call succeeds. -/
def authenticating : TlsCall :=
  .authenticate_as_client { m_data := [], m_length := 0 } (some { m_is_created := true }) {}

/-- A stream with an open session that is disposed of: `flush` calls its base stream,
which is null, and `read` uses contexts that are freed, which counts as a fault here although
the call answers with an error; and created again, `read` does not report
`kEInvalidOperation`. -/
theorem dispose_keeps_session :
    (∃ state, steps step {} [.create true, authenticating, .dispose] = ok state ∧
      state.stream.m_is_opened_session = true ∧ state.stream.m_is_created = false ∧
      state.stream.flush = fail .invalid_access ∧ state.stream.read 1 = fail .invalid_access) ∧
    ∃ state, steps step {} [.create true, authenticating, .dispose, .create true] = ok state ∧
      state.authenticated = false ∧ state.stream.read 1 = ok ⟨kEUnknown, 0⟩ :=
  ⟨⟨_, rfl, rfl, rfl, rfl, rfl⟩, _, rfl, rfl, rfl⟩

end TlsSession

end kfw.net

import Kfw.Net.Socket
import Kfw.Net.Tls

open exec Result kfw.io

namespace kfw.net

def MBEDTLS_ERR_SSL_COUNTER_WRAPPING : Int := -0x6B80
def MBEDTLS_SSL_MSG_APPLICATION_DATA : UInt8 := 23
def MBEDTLS_SSL_MAX_CONTENT_LEN : Nat := 16384

inductive MaxFragLen where
  | MBEDTLS_SSL_MAX_FRAG_LEN_NONE
  | MBEDTLS_SSL_MAX_FRAG_LEN_512
  | MBEDTLS_SSL_MAX_FRAG_LEN_1024
  | MBEDTLS_SSL_MAX_FRAG_LEN_2048
  | MBEDTLS_SSL_MAX_FRAG_LEN_4096

def mfl_code_to_length : MaxFragLen → Nat
  | .MBEDTLS_SSL_MAX_FRAG_LEN_NONE => MBEDTLS_SSL_MAX_CONTENT_LEN
  | .MBEDTLS_SSL_MAX_FRAG_LEN_512 => 512
  | .MBEDTLS_SSL_MAX_FRAG_LEN_1024 => 1024
  | .MBEDTLS_SSL_MAX_FRAG_LEN_2048 => 2048
  | .MBEDTLS_SSL_MAX_FRAG_LEN_4096 => 4096

section Socket

variable {σ : Type} {conn : Stream σ} {sent : σ → List UInt8}

/-- `Socket::send_to` on an open TCP connection; `netconn_write_partly` answers with an
error and the number of bytes it took. -/
def Socket.send_to_tcp (netconn_write_partly : σ → List UInt8 → Int × UInt32 × σ) (state : σ)
    (data : List UInt8) : Exec (RetVal UInt32 × σ) :=
  let (err, written_size, state) := netconn_write_partly state data
  let r := lwip_err_to_ret err
  if is_failed r then ok (⟨r, 0⟩, state) else ok (⟨r, written_size⟩, state)

theorem sendsPartly_of_send_to {netconn_write_partly : σ → List UInt8 → Int × UInt32 × σ}
    (hconn : conn.write = Socket.send_to_tcp netconn_write_partly)
    (hwrites : ∀ state data, data ≠ [] → ∃ err written_size next,
      netconn_write_partly state data = (err, written_size, next) ∧
        (err = ERR_OK ∧ 1 ≤ written_size.toNat ∧ written_size.toNat ≤ data.length ∧
            sent next = sent state ++ data.take written_size.toNat ∨
          err ≠ ERR_OK ∧ sent next = sent state)) :
    conn.SendsPartly sent := by
  intro state data hdata
  obtain ⟨err, written_size, next, hwrite, ⟨rfl, hpos, hle, hsent⟩ | ⟨herr, hsent⟩⟩ := hwrites state data hdata
  · refine ⟨⟨kOk, written_size⟩, next, ?_, .inl ⟨rfl, hpos, hle, hsent⟩⟩
    simp [hconn, Socket.send_to_tcp, hwrite, show lwip_err_to_ret ERR_OK = kOk from rfl]
  · have hfailed := is_failed_lwip_err_to_ret herr
    refine ⟨⟨lwip_err_to_ret err, 0⟩, next, ?_, .inr ⟨hfailed, rfl, hsent⟩⟩
    simp [hconn, Socket.send_to_tcp, hwrite, hfailed]

/-- What the connection of a socket has taken. -/
def Socket.accepted (sent : σ → List UInt8) (socket : Socket σ) : List UInt8 := socket.m_context.elim [] sent

theorem SocketStream.sendsPartly (hconn : conn.SendsPartly sent) :
    (SocketStream conn).SendsPartly (Socket.accepted sent) := by
  rintro ⟨m_context⟩ data hdata
  cases m_context with
  | none => exact ⟨⟨kEDisposed, 0⟩, _, rfl, .inr ⟨rfl, rfl, rfl⟩⟩
  | some state =>
    obtain ⟨r, next, hwrite, hanswer⟩ := hconn state data hdata
    refine ⟨r, { m_context := some next }, ?_, hanswer⟩
    simp [SocketStream, hdata, hwrite]

end Socket

/-- The part of an mbedtls context that writing application data uses once the
handshake is over. `ssl_encrypt_buf` answers 0 and the encrypted message, or a
negative error. The output buffer is given from `out_hdr` to the end of the message,
and `out_ctr` from its last byte to its first. -/
structure SslContext where
  mfl_code : MaxFragLen := .MBEDTLS_SSL_MAX_FRAG_LEN_NONE
  session_out_mfl_code : Option MaxFragLen := none
  major_ver : UInt8 := 3
  minor_ver : UInt8 := 3
  ssl_encrypt_buf : List UInt8 → Int × List UInt8
  ssl_encrypt_buf_le : ∀ message, (ssl_encrypt_buf message).1 ≤ 0
  out_hdr : List UInt8 := []
  out_left : Nat := 0
  out_ctr : List UInt8

variable {σ : Type}

/-- The callback that mbedtls sends with: the value of the stream's answer, whether it
failed or not. -/
def ssl_send (base : Stream σ) (state : σ) (data : List UInt8) : Exec (Int × σ) := do
  let (r, state) ← base.write state data
  ok (r.val.toNat, state)

/-- Where the loop of `mbedtls_ssl_flush_output` stands. -/
structure Flushing (σ : Type) where
  out_left : Nat
  base_state : σ

/-- One pass through the loop of `mbedtls_ssl_flush_output` over a record. It leaves
with the answer to return at once, or with none when everything is sent. -/
def flush_pass (base : Stream σ) (out_hdr : List UInt8) (flushing : Flushing σ) :
    Exec (Flow (Flushing σ) (Option Int × Flushing σ)) :=
  let { out_left, base_state } := flushing
  if out_left = 0 then ok (.done (none, flushing))
  else do
    let (ret, base_state) ← ssl_send base base_state (out_hdr.drop (out_hdr.length - out_left))
    if ret ≤ 0 then ok (.done (some ret, { out_left, base_state }))
    else ok (.cont { out_left := out_left - ret.toNat, base_state })

/-- Adds one to a counter given from its last byte on, and says whether it wraps. -/
def increment_ctr : List UInt8 → Bool × List UInt8
  | [] => (true, [])
  | byte :: bytes =>
    if byte + 1 ≠ 0 then (false, (byte + 1) :: bytes)
    else
      let (wrapping, bytes) := increment_ctr bytes
      (wrapping, 0 :: bytes)

namespace SslContext

def mbedtls_ssl_get_max_frag_len (ssl : SslContext) : Nat :=
  let max_len := mfl_code_to_length ssl.mfl_code
  match ssl.session_out_mfl_code with
  | none => max_len
  | some mfl_code => if mfl_code_to_length mfl_code < max_len then mfl_code_to_length mfl_code else max_len

def mbedtls_ssl_flush_output (base : Stream σ) (ssl : SslContext) (base_state : σ) (fuel : Nat) :
    Exec (Int × SslContext × σ) :=
  if ssl.out_left = 0 then ok (0, ssl, base_state)
  else do
    let (ret, flushing) ← loop (flush_pass base ssl.out_hdr) fuel { out_left := ssl.out_left, base_state }
    let ssl := { ssl with out_left := flushing.out_left }
    match ret with
    | some ret => ok (ret, ssl, flushing.base_state)
    | none =>
      let (wrapping, out_ctr) := increment_ctr ssl.out_ctr
      ok (if wrapping then MBEDTLS_ERR_SSL_COUNTER_WRAPPING else 0, { ssl with out_ctr }, flushing.base_state)

/-- The record of an encrypted message: its type, the version and its length in the
five bytes of the header, and the message. -/
def record (ssl : SslContext) (message : List UInt8) : List UInt8 :=
  [MBEDTLS_SSL_MSG_APPLICATION_DATA, ssl.major_ver, ssl.minor_ver, (message.length >>> 8).toUInt8,
    message.length.toUInt8] ++ message

/-- `mbedtls_ssl_write_record` of application data. -/
def mbedtls_ssl_write_record (base : Stream σ) (ssl : SslContext) (base_state : σ) (out_msg : List UInt8)
    (fuel : Nat) : Exec (Int × SslContext × σ) :=
  let (ret, message) := ssl.ssl_encrypt_buf out_msg
  if ret ≠ 0 then ok (ret, ssl, base_state)
  else
    let out_hdr := ssl.record message
    mbedtls_ssl_flush_output base { ssl with out_hdr, out_left := out_hdr.length } base_state fuel

/-- The number of bytes that one write takes. -/
def write_len (ssl : SslContext) (data : List UInt8) : Nat :=
  let max_len := ssl.mbedtls_ssl_get_max_frag_len
  if data.length > max_len then max_len else data.length

def ssl_write_real (base : Stream σ) (ssl : SslContext) (base_state : σ) (data : List UInt8) (fuel : Nat) :
    Exec (Int × SslContext × σ) :=
  let len := ssl.write_len data
  if ssl.out_left ≠ 0 then do
    let (ret, ssl, base_state) ← ssl.mbedtls_ssl_flush_output base base_state fuel
    ok (if ret ≠ 0 then ret else len, ssl, base_state)
  else do
    let (ret, ssl, base_state) ← ssl.mbedtls_ssl_write_record base base_state (data.take len) fuel
    ok (if ret ≠ 0 then ret else len, ssl, base_state)

end SslContext

/-- `TlsStream::write` with `mbedtls_ssl_write` as it is with the handshake over, no
renegotiation and no record splitting. -/
def TlsStream.write_data (base : Stream σ) (self : TlsStream) (ssl : SslContext) (base_state : σ)
    (data : List UInt8) (fuel : Nat) : Exec (RetVal UInt32 × SslContext × σ) :=
  if self.m_is_opened_session ∧ self.m_contexts = .set_up true then do
    let (len, ssl, base_state) ← ssl.ssl_write_real base base_state data fuel
    let r ← self.write len
    ok (r, ssl, base_state)
  else do
    let r ← self.write 0
    ok (r, ssl, base_state)

/-- The number of bytes of a record that successive writes to the base stream, none of
which failed, took, and the state they left it in. -/
inductive Sent (base : Stream σ) (record : List UInt8) (start : σ) : Nat → σ → Prop where
  | start : Sent base record start 0 start
  | send {count : Nat} {state next : σ} {r : RetVal UInt32} (hsent : Sent base record start count state)
      (hleft : count < record.length) (hwrite : base.write state (record.drop count) = ok (r, next))
      (hr : is_failed r.ret = false) : Sent base record start (count + r.val.toNat) next

/-- No write of what is left of the record fails. -/
def Uninterrupted (base : Stream σ) (record : List UInt8) (start : σ) : Prop :=
  ∀ count state r next, Sent base record start count state → count < record.length →
    base.write state (record.drop count) = ok (r, next) → is_failed r.ret = false

section Flush

variable {base : Stream σ} {accepted : σ → List UInt8} {record : List UInt8} {start state : σ} {count : Nat}

/-- What was taken is the beginning of the record. -/
theorem Sent.taken (hbase : base.SendsPartly accepted) (h : Sent base record start count state) :
    count ≤ record.length ∧ accepted state = accepted start ++ record.take count := by
  induction h with
  | start => exact ⟨Nat.zero_le _, by simp⟩
  | @send count state next r hsent hleft hwrite hr ih =>
    have hdata : record.drop count ≠ [] := by simpa using hleft
    rcases hbase.answer hdata hwrite with ⟨-, -, hle, htaken⟩ | ⟨hfailed, -⟩
    · rw [List.length_drop] at hle
      refine ⟨by omega, ?_⟩
      rw [htaken, ih.2, List.append_assoc, List.take_add]
    · exact absurd hfailed (by simp [hr])

/-- A pass with bytes left whose write succeeds with `r.val` of them. -/
theorem flush_pass_send (hleft : count < record.length) {r : RetVal UInt32} {next : σ}
    (hwrite : base.write state (record.drop count) = ok (r, next)) (hval : 1 ≤ r.val.toNat) :
    flush_pass base record ⟨record.length - count, state⟩ =
      ok (.cont ⟨record.length - (count + r.val.toNat), next⟩) := by
  have hnonzero : ¬ record.length - count = 0 := by omega
  have hoffset : record.length - (record.length - count) = count := by omega
  have hpositive : ¬ (r.val.toNat : Int) ≤ 0 := by omega
  simp only [flush_pass, hnonzero, if_false, ssl_send, hoffset, hwrite, bind_ok, hpositive, Int.toNat_natCast,
    Nat.sub_sub]

/-- A pass whose write fails returns 0, as if everything were sent. -/
theorem flush_pass_failed (hleft : count < record.length) {r : RetVal UInt32} {next : σ}
    (hwrite : base.write state (record.drop count) = ok (r, next)) (hval : r.val = 0) :
    flush_pass base record ⟨record.length - count, state⟩ =
      ok (.done (some 0, ⟨record.length - count, next⟩)) := by
  have hnonzero : ¬ record.length - count = 0 := by omega
  have hoffset : record.length - (record.length - count) = count := by omega
  simp [flush_pass, hnonzero, ssl_send, hoffset, hwrite, hval]

/-- The loop comes past every point up to which the record can be sent. -/
theorem Sent.passes (hbase : base.SendsPartly accepted) (h : Sent base record start count state) :
    Passes (flush_pass base record) ⟨record.length, start⟩ ⟨record.length - count, state⟩ := by
  induction h with
  | start => exact .start
  | @send count state next r hsent hleft hwrite hr ih =>
    have hdata : record.drop count ≠ [] := by simpa using hleft
    rcases hbase.answer hdata hwrite with ⟨-, hval, -⟩ | ⟨hfailed, -⟩
    · exact ih.next (flush_pass_send hleft hwrite hval)
    · exact absurd hfailed (by simp [hr])

/-- Without a failing write the loop leaves with the whole record sent. -/
theorem Uninterrupted.flushes (hbase : base.SendsPartly accepted) (h : Uninterrupted base record start)
    {fuel : Nat} {ret : Option Int} {flushing : Flushing σ}
    (hloop : loop (flush_pass base record) fuel ⟨record.length, start⟩ = ok (ret, flushing)) :
    ret = none ∧ accepted flushing.base_state = accepted start ++ record := by
  refine loop_invariant (flush_pass base record)
    (fun flushing => ∃ count state, Sent base record start count state ∧
      flushing = ⟨record.length - count, state⟩)
    (fun result => result.1 = none ∧ accepted result.2.base_state = accepted start ++ record) ?_
    ⟨0, start, .start, rfl⟩ hloop
  rintro flushing flow ⟨count, state, hsent, rfl⟩ hflow
  obtain ⟨hle, htaken⟩ := hsent.taken hbase
  by_cases hleft : count < record.length
  · have hdata : record.drop count ≠ [] := by simpa using hleft
    obtain ⟨r, next, hwrite, hanswer⟩ := hbase state _ hdata
    have hr := h count state r next hsent hleft hwrite
    rcases hanswer with ⟨-, hval, -⟩ | ⟨hfailed, -⟩
    · rw [flush_pass_send hleft hwrite hval] at hflow
      cases hflow
      exact ⟨_, next, hsent.send hleft hwrite hr, rfl⟩
    · exact absurd hfailed (by simp [hr])
  · have hall : count = record.length := by omega
    subst hall
    simp only [flush_pass, Nat.sub_self, if_true, ok.injEq] at hflow
    subst hflow
    exact ⟨rfl, by simpa using htaken⟩

/-- A failing write ends the loop with the answer 0 and a part of the record only. -/
theorem flush_interrupted (hbase : base.SendsPartly accepted) (h : ¬ Uninterrupted base record start) :
    ∃ fuel flushing, loop (flush_pass base record) fuel ⟨record.length, start⟩ = ok (some 0, flushing) ∧
      accepted flushing.base_state ≠ accepted start ++ record := by
  simp only [Uninterrupted, not_forall] at h
  obtain ⟨count, state, r, next, hsent, hleft, hwrite, hfailed⟩ := h
  obtain ⟨-, htaken⟩ := hsent.taken hbase
  have hdata : record.drop count ≠ [] := by simpa using hleft
  rcases hbase.answer hdata hwrite with ⟨hr, -⟩ | ⟨-, hval, hkept⟩
  · exact absurd hr hfailed
  obtain ⟨passed, hpassed⟩ := (hsent.passes hbase).loop_eq
  refine ⟨passed + 1, ⟨record.length - count, next⟩, ?_, ?_⟩
  · rw [hpassed, loop_done 0 (flush_pass_failed hleft hwrite hval)]
  · simp only [hkept, htaken]
    intro hequal
    have hlengths := congrArg List.length (List.append_cancel_left hequal)
    rw [List.length_take] at hlengths
    omega

end Flush

namespace TlsStream

variable {base : Stream σ} {accepted : σ → List UInt8} {self : TlsStream} {ssl : SslContext} {state : σ}
  {data : List UInt8}

/-- The answer of encrypting the bytes that a write takes. -/
def encrypted (ssl : SslContext) (data : List UInt8) : Int × List UInt8 :=
  ssl.ssl_encrypt_buf (data.take (ssl.write_len data))

/-- A write that returns `kOk` and a count above 0 has its whole record accepted by the
base stream. -/
def Acknowledges (base : Stream σ) (accepted : σ → List UInt8) (self : TlsStream) (ssl : SslContext) (state : σ)
    (data : List UInt8) : Prop :=
  ∀ fuel r ssl' state', self.write_data base ssl state data fuel = ok (r, ssl', state') → r.ret = kOk →
    0 < r.val.toNat → accepted state' = accepted state ++ ssl.record (encrypted ssl data).2

/-- A write that comes to send a record: in an open session, of at least one byte,
which can be encrypted. -/
structure Produces (stream : TlsStream) (ssl : SslContext) (data : List UInt8) : Prop where
  opened : stream.m_is_opened_session = true
  set_up : stream.m_contexts = .set_up true
  some_bytes : 0 < ssl.write_len data
  encrypts : (encrypted ssl data).1 = 0

theorem write_len_le (ssl : SslContext) (data : List UInt8) :
    ssl.write_len data ≤ MBEDTLS_SSL_MAX_CONTENT_LEN := by
  have hcode : ∀ mfl_code, mfl_code_to_length mfl_code ≤ MBEDTLS_SSL_MAX_CONTENT_LEN := by
    intro mfl_code
    cases mfl_code <;> decide
  have hmax : ssl.mbedtls_ssl_get_max_frag_len ≤ MBEDTLS_SSL_MAX_CONTENT_LEN := by
    simp only [SslContext.mbedtls_ssl_get_max_frag_len]
    split
    · exact hcode _
    · split <;> exact hcode _
  simp only [SslContext.write_len]
  split <;> omega

/-- A write in an open session, in terms of the answer of `ssl_write_real`. -/
theorem write_data_opened (hopened : self.m_is_opened_session = true) (hset_up : self.m_contexts = .set_up true)
    (base : Stream σ) (ssl : SslContext) (state : σ) (data : List UInt8) (fuel : Nat) :
    self.write_data base ssl state data fuel = (do
      let (len, ssl, state) ← ssl.ssl_write_real base state data fuel
      ok (if len ≥ 0 then ⟨kOk, len.toNat.toUInt32⟩ else ⟨kEUnknown, 0⟩, ssl, state)) := by
  rw [write_data, if_pos ⟨hopened, hset_up⟩]
  cases ssl.ssl_write_real base state data fuel with
  | ok result =>
    obtain ⟨len, ssl, state⟩ := result
    by_cases hlen : len ≥ 0
    · simp [write, transfer, ssl_transfer, hopened, hset_up, hlen]
    · simp [write, transfer, ssl_transfer, hopened, hset_up, hlen]
  | fail error => rfl
  | div => rfl

/-- A write that starts with an empty output buffer, once its bytes are encrypted. -/
theorem ssl_write_real_eq (hempty : ssl.out_left = 0) (hencrypts : (encrypted ssl data).1 = 0) (fuel : Nat) :
    ssl.ssl_write_real base state data fuel = (do
      let (ret, flushing) ← loop (flush_pass base (ssl.record (encrypted ssl data).2)) fuel
        ⟨(ssl.record (encrypted ssl data).2).length, state⟩
      let wraps := (increment_ctr ssl.out_ctr).1
      let answer := ret.getD (if wraps then MBEDTLS_ERR_SSL_COUNTER_WRAPPING else 0)
      ok (if answer ≠ 0 then answer else ssl.write_len data,
        { ssl with
          out_hdr := ssl.record (encrypted ssl data).2
          out_left := flushing.out_left
          out_ctr := if ret.isSome then ssl.out_ctr else (increment_ctr ssl.out_ctr).2 },
        flushing.base_state)) := by
  have hnonempty : ¬ (ssl.record (encrypted ssl data).2).length = 0 := by simp [SslContext.record]
  have hbuf : ssl.ssl_encrypt_buf (data.take (ssl.write_len data)) = (0, (encrypted ssl data).2) := by
    rw [← hencrypts]
    rfl
  simp only [SslContext.ssl_write_real, hempty, ne_eq, not_true, if_false,
    SslContext.mbedtls_ssl_write_record, hbuf, SslContext.mbedtls_ssl_flush_output, hnonempty]
  cases loop (flush_pass base (ssl.record (encrypted ssl data).2)) fuel
      ⟨(ssl.record (encrypted ssl data).2).length, state⟩ with
  | ok result =>
    obtain ⟨ret, flushing⟩ := result
    cases ret <;> rfl
  | fail error => rfl
  | div => rfl

theorem ssl_write_real_refused (hempty : ssl.out_left = 0) (hrefused : (encrypted ssl data).1 ≠ 0) (fuel : Nat) :
    ssl.ssl_write_real base state data fuel = ok ((encrypted ssl data).1, ssl, state) := by
  have hbuf : ssl.ssl_encrypt_buf (data.take (ssl.write_len data)) = encrypted ssl data := rfl
  simp [SslContext.ssl_write_real, hempty, SslContext.mbedtls_ssl_write_record, hbuf, hrefused]

/-- The loop of `mbedtls_ssl_flush_output` returns nothing positive. -/
theorem flush_le {record : List UInt8} {fuel : Nat} {start flushing : Flushing σ} {ret : Int}
    (hloop : loop (flush_pass base record) fuel start = ok (some ret, flushing)) : ret ≤ 0 := by
  obtain ⟨last, -, hdone⟩ := loop_last .start hloop
  unfold flush_pass at hdone
  by_cases hleft : last.out_left = 0
  · simp [hleft] at hdone
  · simp only [hleft, if_false] at hdone
    obtain ⟨⟨answer, base_state⟩, -, hresult⟩ := bind_eq_ok_iff.mp hdone
    by_cases hanswer : answer ≤ 0
    · simp only [hanswer, if_true, ok.injEq, Flow.done.injEq, Prod.mk.injEq, Option.some.injEq] at hresult
      rwa [← hresult.1]
    · simp [hanswer] at hresult

/-- `ssl_write_real` answers with no more than the bytes it takes. -/
theorem ssl_write_real_le (hempty : ssl.out_left = 0) (hencrypts : (encrypted ssl data).1 = 0) {fuel : Nat}
    {len : Int} {ssl' : SslContext} {state' : σ}
    (h : ssl.ssl_write_real base state data fuel = ok (len, ssl', state')) :
    len ≤ ssl.write_len data := by
  rw [ssl_write_real_eq hempty hencrypts] at h
  obtain ⟨⟨ret, flushing⟩, hloop, hresult⟩ := bind_eq_ok_iff.mp h
  have hanswer :
      ret.getD (if (increment_ctr ssl.out_ctr).1 then MBEDTLS_ERR_SSL_COUNTER_WRAPPING else 0) ≤ 0 := by
    cases ret with
    | none =>
      rw [Option.getD_none]
      split <;> decide
    | some ret => exact flush_le hloop
  simp only [ok.injEq, Prod.mk.injEq] at hresult
  rw [← hresult.1]
  generalize ret.getD (if (increment_ctr ssl.out_ctr).1 then MBEDTLS_ERR_SSL_COUNTER_WRAPPING else 0) = answer
    at hanswer
  split <;> omega

/-- Without a record a write does not return `kOk` with a count above 0. -/
theorem acknowledges_of_not_produces (hempty : ssl.out_left = 0) (h : ¬ Produces self ssl data) :
    Acknowledges base accepted self ssl state data := by
  intro fuel r ssl' state' hwrite hr hval
  exfalso
  have hunknown : kEUnknown ≠ kOk := by decide
  have hoperation : kEInvalidOperation ≠ kOk := by decide
  by_cases hsession : self.m_is_opened_session = true ∧ self.m_contexts = .set_up true
  · rw [write_data_opened hsession.1 hsession.2] at hwrite
    obtain ⟨⟨len, _, _⟩, hreal, hresult⟩ := bind_eq_ok_iff.mp hwrite
    have hpositive : 0 < len := by
      simp only [ok.injEq, Prod.mk.injEq] at hresult
      obtain ⟨rfl, -⟩ := hresult
      by_cases hlen : len ≥ 0
      · rw [if_pos hlen] at hval
        by_contra hzero
        obtain rfl : len = 0 := by omega
        simp at hval
      · rw [if_neg hlen] at hr
        exact absurd hr hunknown
    by_cases hencrypts : (encrypted ssl data).1 = 0
    · have hle := ssl_write_real_le hempty hencrypts hreal
      exact h ⟨hsession.1, hsession.2, by omega, hencrypts⟩
    · rw [ssl_write_real_refused hempty hencrypts, ok.injEq, Prod.mk.injEq] at hreal
      have hnegative := ssl.ssl_encrypt_buf_le (data.take (ssl.write_len data))
      exact absurd hnegative (not_le.mpr (hreal.1 ▸ hpositive))
  · rw [write_data, if_neg hsession] at hwrite
    obtain ⟨answer, hanswer, hresult⟩ := bind_eq_ok_iff.mp hwrite
    cases hresult
    cases hopened : self.m_is_opened_session with
    | false =>
      simp only [write, transfer, hopened, Bool.false_eq_true, not_false_eq_true, if_true, ok.injEq] at hanswer
      rw [← hanswer] at hr
      exact hoperation hr
    | true =>
      have hnot : self.m_contexts ≠ .set_up true := fun hset_up => hsession ⟨hopened, hset_up⟩
      cases hcontexts : self.m_contexts with
      | initialised =>
        simp only [write, transfer, hopened, not_true, if_false, ssl_transfer, hcontexts, bind_ok] at hanswer
        rw [if_neg (by decide), ok.injEq] at hanswer
        rw [← hanswer] at hr
        exact hunknown hr
      | set_up p_bio =>
        cases p_bio with
        | true => exact hnot hcontexts
        | false => simp [write, transfer, hopened, ssl_transfer, hcontexts] at hanswer
      | _ => simp [write, transfer, hopened, ssl_transfer, hcontexts] at hanswer

theorem acknowledges_of_uninterrupted (hbase : base.SendsPartly accepted) (hempty : ssl.out_left = 0)
    (h : Produces self ssl data) (hsends : Uninterrupted base (ssl.record (encrypted ssl data).2) state) :
    Acknowledges base accepted self ssl state data := by
  intro fuel r ssl' state' hwrite _ _
  rw [write_data_opened h.opened h.set_up] at hwrite
  obtain ⟨⟨len, _, _⟩, hreal, hresult⟩ := bind_eq_ok_iff.mp hwrite
  rw [ssl_write_real_eq hempty h.encrypts] at hreal
  obtain ⟨⟨ret, flushing⟩, hloop, hflushed⟩ := bind_eq_ok_iff.mp hreal
  cases hresult
  cases hflushed
  exact (hsends.flushes hbase hloop).2

/-- A write to the base stream that fails makes `mbedtls_ssl_flush_output` return 0, and
the write is acknowledged with its record cut off. -/
theorem not_acknowledges_of_interrupted (hbase : base.SendsPartly accepted) (hempty : ssl.out_left = 0)
    (h : Produces self ssl data) (hfails : ¬ Uninterrupted base (ssl.record (encrypted ssl data).2) state) :
    ¬ Acknowledges base accepted self ssl state data := by
  obtain ⟨fuel, flushing, hloop, hcut⟩ := flush_interrupted hbase hfails
  intro hacknowledges
  have hlen := write_len_le ssl data
  have hval : (ssl.write_len data).toUInt32.toNat = ssl.write_len data :=
    Nat.mod_eq_of_lt (Nat.lt_of_le_of_lt hlen (by decide))
  have hwrite := write_data_opened h.opened h.set_up base ssl state data fuel
  rw [ssl_write_real_eq hempty h.encrypts, hloop] at hwrite
  refine hcut (hacknowledges fuel _ _ _ hwrite ?_ ?_)
  · simp
  · simpa [hval] using h.some_bytes

/-- A write is acknowledged only with its record accepted exactly if no write of the
record to the base stream fails. -/
theorem tls_write_acknowledged_iff (hbase : base.SendsPartly accepted) (self : TlsStream) {ssl : SslContext}
    (hempty : ssl.out_left = 0) (state : σ) (data : List UInt8) :
    Acknowledges base accepted self ssl state data ↔
      (Produces self ssl data → Uninterrupted base (ssl.record (encrypted ssl data).2) state) := by
  by_cases h : Produces self ssl data
  · refine ⟨fun hacknowledges _ => ?_, fun hsends => acknowledges_of_uninterrupted hbase hempty h (hsends h)⟩
    by_contra hfails
    exact not_acknowledges_of_interrupted hbase hempty h hfails hacknowledges
  · exact iff_of_true (acknowledges_of_not_produces hempty h) fun hproduces => absurd hproduces h

/-- A base stream that takes one byte with each write, until it is closed. -/
def trickle (closed : Nat → Bool) : Stream (List UInt8) where
  read sent _ := ok (⟨kOk, 0⟩, [], sent)
  write sent data :=
    if closed sent.length then ok (⟨kESocketClosed, 0⟩, sent) else ok (⟨kOk, 1⟩, sent ++ data.take 1)
  flush sent := ok sent

theorem trickle_sendsPartly (closed : Nat → Bool) : (trickle closed).SendsPartly id := by
  intro sent data hdata
  cases hclosed : closed sent.length with
  | true => exact ⟨⟨kESocketClosed, 0⟩, sent, by simp [trickle, hclosed], .inr ⟨rfl, rfl, rfl⟩⟩
  | false =>
    have hlength : 1 ≤ data.length := List.length_pos_iff.mpr hdata
    exact ⟨⟨kOk, 1⟩, sent ++ data.take 1, by simp [trickle, hclosed], .inl ⟨rfl, Nat.le_refl _, hlength, rfl⟩⟩

/-- An open session, and an mbedtls context without encryption. -/
def session : TlsStream where
  m_is_created := true
  m_is_opened_session := true
  m_base_stream := true
  m_contexts := .set_up true

def plain : SslContext where
  ssl_encrypt_buf message := (0, message)
  ssl_encrypt_buf_le _ := Int.le_refl 0
  out_ctr := [0, 0, 0, 0, 0, 0, 0, 0]

theorem tls_write_acknowledged_whole : Acknowledges (trickle fun _ => false) id session plain [] [65] :=
  (tls_write_acknowledged_iff (trickle_sendsPartly _) session (show plain.out_left = 0 from rfl) [] [65]).mpr
    fun _ count sent r next _ _ hwrite => by
      simp only [trickle, Bool.false_eq_true, if_false, ok.injEq, Prod.mk.injEq] at hwrite
      rw [← hwrite.1]
      rfl

/-- The socket takes three bytes of a record of six and is closed: the write is
acknowledged. -/
theorem tls_write_acknowledged_cut :
    plain.record (encrypted plain [65]).2 = [23, 3, 3, 0, 1, 65] ∧
      ∃ ssl, session.write_data (trickle fun sent => sent ≥ 3) plain [] [65] 4 = ok (⟨kOk, 1⟩, ssl, [23, 3, 3]) :=
  ⟨rfl, _, rfl⟩

end TlsStream

end kfw.net

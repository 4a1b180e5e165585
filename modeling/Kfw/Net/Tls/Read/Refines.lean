import Kfw.Net.Tls.Read
import Kfw.Net.Wire

open exec Result kfw.io

namespace kfw.net

/-- What a record makes a read do: it gives data, is passed over, or makes the read fail. -/
inductive Item where
  | data (content : List UInt8)
  | ignored
  | refused
  deriving DecidableEq

/-- What stands behind the last whole record: too little for another one, or a header that is
not taken. -/
inductive Ending where
  | cut
  | malformed
  deriving DecidableEq

/-- The length of the handshake message that a content begins with. -/
def handshake_length (content : List UInt8) : Nat := mbedtls_ssl_hs_hdr_len + be_nat ((content.drop 1).take 3)

/-- Each handshake message of a record is refused on its own. -/
def refusals (content : List UInt8) : List Item :=
  if _ : mbedtls_ssl_hs_hdr_len ≤ content.length ∧ handshake_length content < content.length then
    .refused :: refusals (content.drop (handshake_length content))
  else [.refused]
termination_by content.length
decreasing_by
  have hpositive : 0 < handshake_length content := Nat.lt_of_lt_of_le (by decide) (Nat.le_add_right _ _)
  rw [List.length_drop]
  omega

/-- What a record of the type makes of its decrypted content. -/
def items_of (in_msgtype : UInt8) (decrypted : Decrypted) : List Item :=
  if decrypted.ret ≠ 0 then [.refused]
  else if in_msgtype = MBEDTLS_SSL_MSG_HANDSHAKE then refusals decrypted.in_msg
  else if in_msgtype = MBEDTLS_SSL_MSG_ALERT then
    if SslInput.alert_answer (SslInput.alert_message decrypted.in_msg decrypted.behind) = MBEDTLS_ERR_SSL_NON_FATAL
    then [.ignored] else [.refused]
  else if in_msgtype = MBEDTLS_SSL_MSG_APPLICATION_DATA then [.data decrypted.in_msg]
  else [.refused]

namespace SslTransform

def valid_header (transform : SslTransform) (in_msgtype major_ver minor_ver high low : UInt8) : Bool :=
  SslInput.known_type in_msgtype && transform.accepts_header major_ver minor_ver (be_nat [high, low])

/-- What all the bytes of a connection mean, record by record. -/
def decode (transform : SslTransform) (counters : InCounters) (bytes : List UInt8) : List Item × Ending :=
  match bytes with
  | in_msgtype :: major_ver :: minor_ver :: high :: low :: body =>
    if transform.valid_header in_msgtype major_ver minor_ver high low then
      let in_msglen := be_nat [high, low]
      if body.length < in_msglen then ([], .cut)
      else
        let decrypted :=
          transform.ssl_prepare_record_content counters in_msgtype [major_ver, minor_ver] (body.take in_msglen)
        let (items, ending) := decode transform decrypted.counters (body.drop in_msglen)
        (items_of in_msgtype decrypted ++ items, ending)
    else ([], .malformed)
  | _ => ([], .cut)
termination_by bytes.length
decreasing_by
  simp only [List.length_cons, List.length_drop]
  omega

end SslTransform

/-- A connection as its reader sees it: what is left of the current record, what the records
to come make the reads do, and how it ends. -/
structure TlsReader where
  unread : List UInt8 := []
  items : List Item
  ending : Ending

/-- The first item that is not passed over. -/
def next_item : List Item → Option (Item × List Item)
  | [] => none
  | .ignored :: items => next_item items
  | item :: items => some (item, items)

namespace TlsReader

/-- The reader of everything that comes over a connection. -/
def start (transform : SslTransform) (counters : InCounters) (bytes : List UInt8) : TlsReader where
  items := (transform.decode counters bytes).1
  ending := (transform.decode counters bytes).2

def give (reader : TlsReader) (content : List UInt8) (size : UInt32) : (RetVal UInt32 × List UInt8) × TlsReader :=
  let data := content.take size.toNat
  ((⟨kOk, data.length.toUInt32⟩, data), { reader with unread := content.drop size.toNat })

def refuse (reader : TlsReader) : (RetVal UInt32 × List UInt8) × TlsReader := ((⟨kEUnknown, 0⟩, []), reader)

/-- Behind the last record: the end of the connection reads as success. -/
def at_end (reader : TlsReader) : (RetVal UInt32 × List UInt8) × TlsReader :=
  match reader.ending with
  | .cut => ((⟨kOk, 0⟩, []), { reader with items := [] })
  | .malformed => ((⟨kEUnknown, 0⟩, []), { reader with items := [] })

/-- The read of the next item. -/
def read_item (reader : TlsReader) (size : UInt32) : (RetVal UInt32 × List UInt8) × TlsReader :=
  match next_item reader.items with
  | none => reader.at_end
  | some (.data content, items) => give { reader with items } content size
  | some (_, items) => refuse { reader with items }

/-- One empty record is passed over, a second one is given as no bytes. -/
def read (reader : TlsReader) (size : UInt32) : (RetVal UInt32 × List UInt8) × TlsReader :=
  if reader.unread ≠ [] then reader.give reader.unread size
  else
    match next_item reader.items with
    | some (.data [], items) => { reader with items }.read_item size
    | _ => reader.read_item size

def reads : List UInt32 → TlsReader → List (RetVal UInt32 × List UInt8)
  | [], _ => []
  | size :: sizes, reader => (reader.read size).1 :: reads sizes (reader.read size).2

end TlsReader

section Refinement

variable {σ : Type} {transform : SslTransform} {alert : σ → UInt8 → UInt8 → Exec (Int × σ)} {base : Stream σ}
  {pending : σ → List UInt8 → Prop} {fuel : Nat} {ssl : SslInput} {state : σ} {bytes rest : List UInt8}

/-- A connection that is cut off, on which alerts can be sent. -/
structure Peer (alert : σ → UInt8 → UInt8 → Exec (Int × σ)) (base : Stream σ)
    (pending : σ → List UInt8 → Prop) : Prop where
  cutOff : base.CutOff pending
  alerts : ∀ state bytes level message, pending state bytes →
    ∃ ret next, alert state level message = ok (ret, next) ∧ ret ≤ 0 ∧ pending next bytes

theorem toInt_of_small {value : UInt32} (h : value.toNat < 2 ^ 31) : value.toInt32.toInt = value.toNat :=
  BitVec.toInt_eq_toNat_of_lt (by simpa using (show 2 * value.toNat < 2 ^ 32 by omega))

/-- The loop of `mbedtls_ssl_fetch_input` over a connection that is cut off: it gets all it
wants, or all that comes. -/
theorem fetch_loop (hbase : base.CutOff pending) {nb_want : Nat} (hwant : nb_want < 2 ^ 31)
    {in_hdr : List UInt8} (hpending : pending state rest) (hfuel : rest.length + 2 ≤ fuel) :
    ∃ ret more left next, loop (fetch_pass base nb_want) fuel ⟨in_hdr, state⟩ = ok (ret, ⟨in_hdr ++ more, next⟩) ∧
      rest = more ++ left ∧ pending next left ∧
      (ret = 0 ∧ in_hdr.length + more.length = max in_hdr.length nb_want ∨
        ret = MBEDTLS_ERR_SSL_CONN_EOF ∧ in_hdr.length + more.length < nb_want ∧ left = []) := by
  induction fuel generalizing in_hdr state rest with
  | zero => omega
  | succ fuel ih =>
    by_cases hless : in_hdr.length < nb_want
    · have hsize : (nb_want - in_hdr.length).toUInt32.toNat = nb_want - in_hdr.length :=
        Nat.mod_eq_of_lt (by omega)
      have hasks : 0 < (nb_want - in_hdr.length).toUInt32.toNat := by omega
      by_cases hrest : rest = []
      · -- the read fails, and its value 0 is taken for the end of the connection
        subst hrest
        obtain ⟨ret, next, hread, hnext⟩ := hbase.ends state _ hpending hasks
        refine ⟨MBEDTLS_ERR_SSL_CONN_EOF, [], [], next, loop_done fuel ?_, rfl, hnext, .inr ⟨rfl, hless, rfl⟩⟩
        simp [fetch_pass, hless, ssl_recv, hread]
      · obtain ⟨data, left, next, hread, hdata, hlength, rfl, hnext⟩ :=
          hbase.delivers state rest _ hpending hrest hasks
        rw [hsize] at hlength
        have hpositive : 0 < data.length := List.length_pos_iff.mpr hdata
        have hval : data.length.toUInt32.toNat = data.length := Nat.mod_eq_of_lt (by omega)
        have hint : data.length.toUInt32.toInt32.toInt = data.length := by
          rw [toInt_of_small (by omega), hval]
        have hpass : fetch_pass base nb_want ⟨in_hdr, state⟩ = ok (.cont ⟨in_hdr ++ data, next⟩) := by
          have hnonzero : ¬ (data.length : Int) = 0 := by omega
          have hnegative : ¬ (data.length : Int) < 0 := by omega
          simp only [fetch_pass, hless, if_true, ssl_recv, hread, bind_ok, hint, hnonzero, hnegative, if_false,
            Int.toNat_natCast, Nat.lt_irrefl, List.take_length]
        rw [loop_cont fuel hpass]
        obtain ⟨ret, more, left', next', hloop, rfl, hpending', hret⟩ :=
          @ih next left (in_hdr ++ data) hnext (by rw [List.length_append] at hfuel; omega)
        refine ⟨ret, data ++ more, left', next', ?_, (List.append_assoc ..).symm, hpending', ?_⟩
        · rw [hloop, List.append_assoc]
        · simp only [List.length_append] at hret ⊢
          rcases hret with ⟨hret, hmore⟩ | ⟨hret, hmore, hleft⟩
          · exact .inl ⟨hret, by omega⟩
          · exact .inr ⟨hret, by omega, hleft⟩
    · refine ⟨0, [], rest, state, loop_done fuel ?_, rfl, hpending, .inl ⟨rfl, ?_⟩⟩
      · simp [fetch_pass, hless]
      · rw [List.length_nil]
        omega

theorem fetch_input_spec (hbase : base.CutOff pending) {nb_want : Nat}
    (hwant : nb_want ≤ MBEDTLS_SSL_BUFFER_LEN - in_hdr_offset) (hpending : pending state rest)
    (hfuel : rest.length + 2 ≤ fuel) :
    ∃ ret more left next, ssl.mbedtls_ssl_fetch_input base state nb_want fuel =
        ok (ret, { ssl with in_hdr := ssl.in_hdr ++ more }, next) ∧ rest = more ++ left ∧ pending next left ∧
      (ret = 0 ∧ ssl.in_hdr.length + more.length = max ssl.in_hdr.length nb_want ∨
        ret = MBEDTLS_ERR_SSL_CONN_EOF ∧ ssl.in_hdr.length + more.length < nb_want ∧ left = []) := by
  have hsmall : nb_want < 2 ^ 31 := Nat.lt_of_le_of_lt hwant (by decide)
  obtain ⟨ret, more, left, next, hloop, hspec⟩ := fetch_loop hbase hsmall hpending hfuel
  refine ⟨ret, more, left, next, ?_, hspec⟩
  rw [SslInput.mbedtls_ssl_fetch_input, if_neg (by omega), hloop]
  rfl

/-- The bytes of a record that may be fetched when it is not whole. -/
def SslTransform.Fits (transform : SslTransform) : List UInt8 → Prop
  | in_msgtype :: major_ver :: minor_ver :: high :: low :: body =>
    body = [] ∨ transform.valid_header in_msgtype major_ver minor_ver high low = true ∧
      body.length ≤ be_nat [high, low]
  | _ => True

/-- The context has no application data at hand, and `bytes` are all that is still to be
decoded. -/
structure Ahead (transform : SslTransform) (pending : σ → List UInt8 → Prop) (ssl : SslInput) (state : σ)
    (bytes : List UInt8) : Prop where
  idle : ssl.in_offt = false
  handshake : ssl.in_hslen ≠ 0 → ssl.in_msgtype = MBEDTLS_SSL_MSG_HANDSHAKE ∧ ssl.in_msglen = ssl.in_msg.length
  fits : transform.Fits ssl.in_hdr
  wire : ∃ rest, pending state rest ∧ bytes = ssl.in_hdr ++ rest

/-- What is left of a record of handshake messages. -/
def SslInput.carried (ssl : SslInput) : List Item :=
  if ssl.in_hslen ≠ 0 ∧ ssl.in_hslen < ssl.in_msglen then refusals (ssl.in_msg.drop ssl.in_hslen) else []

/-- The items of a context with `bytes` to be decoded. -/
def SslInput.items (transform : SslTransform) (ssl : SslInput) (bytes : List UInt8) : List Item :=
  ssl.carried ++ (transform.decode ssl.counters bytes).1

def SslInput.ending (transform : SslTransform) (ssl : SslInput) (bytes : List UInt8) : Ending :=
  (transform.decode ssl.counters bytes).2

/-- A context that has taken what a record decrypts to. -/
structure Opened (ssl : SslInput) (in_msgtype : UInt8) (decrypted : Decrypted) : Prop where
  hslen : ssl.in_hslen = 0
  msgtype : ssl.in_msgtype = in_msgtype
  msg : ssl.in_msg = decrypted.in_msg
  msglen : ssl.in_msglen = decrypted.in_msg.length
  behind : ssl.behind = decrypted.behind
  counters : ssl.counters = decrypted.counters

/-- What a call of `mbedtls_ssl_read_record_layer` that needs a new record comes to. -/
inductive Layer (transform : SslTransform) (pending : σ → List UInt8 → Prop) (counters : InCounters)
    (bytes : List UInt8) : Int → SslInput → σ → Prop where
  | cut {ssl : SslInput} {state : σ} (hahead : Ahead transform pending ssl state bytes) (hhslen : ssl.in_hslen = 0)
      (hcounters : ssl.counters = counters) (hdecode : transform.decode counters bytes = ([], .cut)) :
      Layer transform pending counters bytes MBEDTLS_ERR_SSL_CONN_EOF ssl state
  | malformed {ssl : SslInput} {state : σ} (hahead : Ahead transform pending ssl state bytes)
      (hhslen : ssl.in_hslen = 0) (hcounters : ssl.counters = counters)
      (hdecode : transform.decode counters bytes = ([], .malformed)) :
      Layer transform pending counters bytes MBEDTLS_ERR_SSL_INVALID_RECORD ssl state
  | record {ssl : SslInput} {state : σ} {in_msgtype : UInt8} {version message rest : List UInt8}
      {decrypted : Decrypted}
      (hahead : Ahead transform pending ssl state rest) (hless : rest.length < bytes.length)
      (hdecrypted : decrypted = transform.ssl_prepare_record_content counters in_msgtype version message)
      (hopened : Opened ssl in_msgtype decrypted)
      (hdecode : transform.decode counters bytes =
        (items_of in_msgtype decrypted ++ (transform.decode decrypted.counters rest).1,
          (transform.decode decrypted.counters rest).2)) :
      Layer transform pending counters bytes decrypted.ret ssl state

theorem decode_short (counters : InCounters) (h : bytes.length < mbedtls_ssl_hdr_len) :
    transform.decode counters bytes = ([], .cut) := by
  unfold SslTransform.decode
  split
  · simp only [List.length_cons, mbedtls_ssl_hdr_len] at h
    omega
  · rfl

section Record

variable {counters : InCounters} {in_msgtype major_ver minor_ver high low : UInt8} {body : List UInt8}

theorem decode_malformed (h : transform.valid_header in_msgtype major_ver minor_ver high low = false) :
    transform.decode counters (in_msgtype :: major_ver :: minor_ver :: high :: low :: body) = ([], .malformed) := by
  rw [SslTransform.decode, if_neg (by simp [h])]

theorem decode_cut (h : transform.valid_header in_msgtype major_ver minor_ver high low = true)
    (hshort : body.length < be_nat [high, low]) :
    transform.decode counters (in_msgtype :: major_ver :: minor_ver :: high :: low :: body) = ([], .cut) := by
  rw [SslTransform.decode, if_pos h, if_pos hshort]

theorem decode_record (h : transform.valid_header in_msgtype major_ver minor_ver high low = true)
    (hwhole : be_nat [high, low] ≤ body.length) {decrypted : Decrypted}
    (hdecrypted : decrypted =
      transform.ssl_prepare_record_content counters in_msgtype [major_ver, minor_ver]
        (body.take (be_nat [high, low]))) :
    transform.decode counters (in_msgtype :: major_ver :: minor_ver :: high :: low :: body) =
      (items_of in_msgtype decrypted ++ (transform.decode decrypted.counters (body.drop (be_nat [high, low]))).1,
        (transform.decode decrypted.counters (body.drop (be_nat [high, low]))).2) := by
  rw [SslTransform.decode, if_pos h, if_neg (by omega), hdecrypted]

theorem in_msglen_le (h : transform.valid_header in_msgtype major_ver minor_ver high low = true) :
    mbedtls_ssl_hdr_len + be_nat [high, low] ≤ MBEDTLS_SSL_BUFFER_LEN - in_hdr_offset := by
  simp only [SslTransform.valid_header, SslTransform.accepts_header, Bool.and_eq_true, decide_eq_true_eq] at h
  have hle := h.2.1.1.2
  have hroom : in_hdr_offset + mbedtls_ssl_hdr_len ≤ MBEDTLS_SSL_BUFFER_LEN := by decide
  omega

theorem ssl_parse_record_header_spec (hpeer : Peer alert base pending) (hpending : pending state rest)
    (hhdr : ssl.in_hdr = in_msgtype :: major_ver :: minor_ver :: high :: low :: body) :
    ∃ next, ssl.ssl_parse_record_header transform alert state =
        ok (if transform.valid_header in_msgtype major_ver minor_ver high low then 0
            else MBEDTLS_ERR_SSL_INVALID_RECORD, { ssl with in_msgtype, in_msglen := be_nat [high, low] }, next) ∧
      pending next rest := by
  cases hknown : SslInput.known_type in_msgtype with
  | false =>
    obtain ⟨ret, next, halert, -, hnext⟩ := hpeer.alerts state rest MBEDTLS_SSL_ALERT_LEVEL_FATAL
      MBEDTLS_SSL_ALERT_MSG_UNEXPECTED_MESSAGE hpending
    refine ⟨next, ?_, hnext⟩
    simp [SslInput.ssl_parse_record_header, hhdr, hknown, halert, SslTransform.valid_header]
  | true =>
    refine ⟨state, ?_, hpending⟩
    cases haccepts : transform.accepts_header major_ver minor_ver (be_nat [high, low]) with
    | false => simp [SslInput.ssl_parse_record_header, hhdr, hknown, SslTransform.valid_header, haccepts]
    | true => simp [SslInput.ssl_parse_record_header, hhdr, hknown, SslTransform.valid_header, haccepts]

/-- The decryption of a whole record. -/
theorem open_record_spec (hpeer : Peer alert base pending) (hpending : pending state rest)
    (hidle : ssl.in_offt = false) (hhslen : ssl.in_hslen = 0) {decrypted : Decrypted}
    (hdecrypted : decrypted = transform.ssl_prepare_record_content ssl.counters ssl.in_msgtype
      ((ssl.in_hdr.drop 1).take 2) ((ssl.in_hdr.drop mbedtls_ssl_hdr_len).take ssl.in_msglen)) :
    ∃ ssl' next, ssl.open_record transform alert state = ok (decrypted.ret, ssl', next) ∧
      Opened ssl' ssl.in_msgtype decrypted ∧ Ahead transform pending ssl' next rest := by
  have hopened : Opened { ssl with
      in_hdr := [], in_msg := decrypted.in_msg, in_msglen := decrypted.in_msg.length
      behind := decrypted.behind, counters := decrypted.counters } ssl.in_msgtype decrypted :=
    ⟨hhslen, rfl, rfl, rfl, rfl, rfl⟩
  by_cases hmac : decrypted.ret = MBEDTLS_ERR_SSL_INVALID_MAC
  · obtain ⟨ret, next, halert, -, hnext⟩ := hpeer.alerts state rest MBEDTLS_SSL_ALERT_LEVEL_FATAL
      MBEDTLS_SSL_ALERT_MSG_BAD_RECORD_MAC hpending
    refine ⟨_, next, ?_, hopened, hidle, fun hne => absurd hhslen hne, trivial, rest, hnext, rfl⟩
    simp only [SslInput.open_record, ← hdecrypted, hmac, if_true, halert, bind_ok]
  · refine ⟨_, state, ?_, hopened, hidle, fun hne => absurd hhslen hne, trivial, rest, hpending, rfl⟩
    simp only [SslInput.open_record, ← hdecrypted, hmac, if_false]

theorem fetch_message_spec (hpeer : Peer alert base pending) (hpending : pending state rest)
    (hidle : ssl.in_offt = false) (hhslen : ssl.in_hslen = 0)
    (hhdr : ssl.in_hdr = ssl.in_msgtype :: major_ver :: minor_ver :: high :: low :: body)
    (hmsglen : ssl.in_msglen = be_nat [high, low])
    (hvalid : transform.valid_header ssl.in_msgtype major_ver minor_ver high low = true)
    (hbody : body.length ≤ be_nat [high, low]) (hfuel : rest.length + 2 ≤ fuel) :
    ∃ ret ssl' next, ssl.fetch_message transform alert base state fuel = ok (ret, ssl', next) ∧
      Layer transform pending ssl.counters (ssl.in_hdr ++ rest) ret ssl' next := by
  have hlength : ssl.in_hdr.length = mbedtls_ssl_hdr_len + body.length := by
    rw [hhdr]
    simp only [List.length_cons, mbedtls_ssl_hdr_len]
    omega
  obtain ⟨ret, more, left, next, hfetch, rfl, hnext, ⟨rfl, hmore⟩ | ⟨rfl, hless, rfl⟩⟩ :=
    @fetch_input_spec σ base pending fuel ssl state rest hpeer.cutOff (mbedtls_ssl_hdr_len + ssl.in_msglen)
      (hmsglen ▸ in_msglen_le hvalid) hpending hfuel
  · -- the record is whole
    have hwhole : (body ++ more).length = be_nat [high, low] := by
      rw [List.length_append]
      omega
    have hmessage : ((ssl.in_hdr ++ more).drop mbedtls_ssl_hdr_len).take ssl.in_msglen = body ++ more := by
      rw [hhdr, hmsglen, ← hwhole]
      exact List.take_length
    have hversion : ((ssl.in_hdr ++ more).drop 1).take 2 = [major_ver, minor_ver] := by
      rw [hhdr]
      rfl
    obtain ⟨ssl', next', hopen, hopened, hahead⟩ :=
      @open_record_spec σ transform alert base pending { ssl with in_hdr := ssl.in_hdr ++ more } next left hpeer
        hnext hidle hhslen _ rfl
    rw [hmessage, hversion] at hopen hopened
    refine ⟨_, ssl', next', bind_eq_ok_iff.mpr ⟨_, hfetch, hopen⟩, .record hahead ?_ rfl hopened ?_⟩
    · rw [List.length_append, List.length_append, hlength]
      simp only [mbedtls_ssl_hdr_len]
      omega
    · have hall : (body ++ (more ++ left)) = (body ++ more) ++ left := (List.append_assoc ..).symm
      rw [hhdr]
      simp only [List.cons_append, hall]
      rw [decode_record hvalid (by rw [List.length_append]; omega) rfl, ← hwhole, List.take_left, List.drop_left]
  · rw [List.append_nil]
    refine ⟨MBEDTLS_ERR_SSL_CONN_EOF, { ssl with in_hdr := ssl.in_hdr ++ more }, next,
      bind_eq_ok_iff.mpr ⟨_, hfetch, rfl⟩, .cut ⟨hidle, fun hne => absurd hhslen hne, ?_, [], hnext, ?_⟩ hhslen rfl ?_⟩
    · simp only [hhdr, List.cons_append]
      refine .inr ⟨hvalid, ?_⟩
      rw [List.length_append]
      omega
    · rw [List.append_nil]
    · simp only [hhdr, List.cons_append]
      refine decode_cut hvalid ?_
      rw [List.length_append]
      omega

end Record

theorem exists_header (h : mbedtls_ssl_hdr_len ≤ bytes.length) :
    ∃ in_msgtype major_ver minor_ver high low body,
      bytes = in_msgtype :: major_ver :: minor_ver :: high :: low :: body := by
  match bytes, h with
  | in_msgtype :: major_ver :: minor_ver :: high :: low :: body, _ =>
    exact ⟨in_msgtype, major_ver, minor_ver, high, low, body, rfl⟩

/-- Fewer bytes than a header fit. -/
theorem fits_of_short (h : bytes.length < mbedtls_ssl_hdr_len) : transform.Fits bytes := by
  unfold SslTransform.Fits
  split
  · simp only [List.length_cons, mbedtls_ssl_hdr_len] at h
    omega
  · trivial

theorem fetch_record_spec (hpeer : Peer alert base pending) (h : Ahead transform pending ssl state bytes)
    (hhslen : ssl.in_hslen = 0) (hfuel : bytes.length + 2 ≤ fuel) :
    ∃ ret ssl' next, ssl.fetch_record transform alert base state fuel = ok (ret, ssl', next) ∧
      Layer transform pending ssl.counters bytes ret ssl' next := by
  obtain ⟨rest, hpending, rfl⟩ := h.wire
  rw [List.length_append] at hfuel
  obtain ⟨ret, more, left, next, hfetch, rfl, hnext, ⟨rfl, hmore⟩ | ⟨rfl, hless, rfl⟩⟩ :=
    @fetch_input_spec σ base pending fuel ssl state rest hpeer.cutOff mbedtls_ssl_hdr_len (by decide) hpending
      (by omega)
  · rw [List.length_append] at hfuel
    have hlength : mbedtls_ssl_hdr_len ≤ (ssl.in_hdr ++ more).length := by
      rw [List.length_append]
      omega
    obtain ⟨in_msgtype, major_ver, minor_ver, high, low, body, hhdr⟩ := exists_header hlength
    obtain ⟨next', hparse, hnext'⟩ :=
      @ssl_parse_record_header_spec σ transform alert base pending { ssl with in_hdr := ssl.in_hdr ++ more } next left
        in_msgtype major_ver minor_ver high low body hpeer hnext hhdr
    -- nothing is fetched behind a header unless that is taken
    have hfits : transform.Fits (in_msgtype :: major_ver :: minor_ver :: high :: low :: body) := by
      by_cases hnone : more = []
      · rw [← hhdr, hnone, List.append_nil]
        exact h.fits
      · have hpositive : 0 < more.length := List.length_pos_iff.mpr hnone
        have hheader := congrArg List.length hhdr
        simp only [List.length_append, List.length_cons] at hheader
        refine .inl (List.length_eq_zero_iff.mp ?_)
        simp only [mbedtls_ssl_hdr_len] at hmore
        omega
    cases hvalid : transform.valid_header in_msgtype major_ver minor_ver high low with
    | true =>
      rw [hvalid, if_pos rfl] at hparse
      have hbody : body.length ≤ be_nat [high, low] := by
        rcases hfits with rfl | ⟨-, hbody⟩
        · exact Nat.zero_le _
        · exact hbody
      obtain ⟨ret, ssl', next'', hmessage, hlayer⟩ :=
        @fetch_message_spec σ transform alert base pending fuel
          { ssl with in_hdr := ssl.in_hdr ++ more, in_msgtype, in_msglen := be_nat [high, low] } next' left
          major_ver minor_ver high low body hpeer hnext' h.idle hhslen hhdr rfl hvalid hbody (by omega)
      rw [← List.append_assoc]
      exact ⟨ret, ssl', next'', bind_eq_ok_iff.mpr ⟨_, hfetch, bind_eq_ok_iff.mpr ⟨_, hparse, hmessage⟩⟩, hlayer⟩
    | false =>
      rw [hvalid, if_neg (by decide)] at hparse
      rw [← List.append_assoc]
      refine ⟨_, _, next', bind_eq_ok_iff.mpr ⟨_, hfetch, bind_eq_ok_iff.mpr ⟨_, hparse, rfl⟩⟩,
        .malformed ⟨h.idle, fun hne => absurd hhslen hne, hhdr ▸ hfits, left, hnext', rfl⟩ hhslen rfl ?_⟩
      rw [hhdr]
      exact decode_malformed hvalid
  · rw [List.append_nil]
    have hshort : (ssl.in_hdr ++ more).length < mbedtls_ssl_hdr_len := by
      rw [List.length_append]
      exact hless
    refine ⟨MBEDTLS_ERR_SSL_CONN_EOF, _, next, bind_eq_ok_iff.mpr ⟨_, hfetch, rfl⟩,
      .cut ⟨h.idle, fun hne => absurd hhslen hne, fits_of_short hshort, [], hnext, ?_⟩ hhslen rfl
        (decode_short _ hshort)⟩
    rw [List.append_nil]

theorem consume_done (hdone : ¬ (ssl.in_hslen ≠ 0 ∧ ssl.in_hslen < ssl.in_msglen)) :
    ssl.consume = { ssl with in_msglen := 0, in_msg := [], in_hslen := 0 } := by
  unfold SslInput.consume
  by_cases hhslen : ssl.in_hslen = 0
  · simp [hhslen]
  · have hless : ¬ ssl.in_hslen < ssl.in_msglen := fun hless => hdone ⟨hhslen, hless⟩
    simp [hhslen, hless]

/-- The record layer when nothing of the last record is left. -/
theorem read_record_layer_spec (hpeer : Peer alert base pending) (h : Ahead transform pending ssl state bytes)
    (hdone : ¬ (ssl.in_hslen ≠ 0 ∧ ssl.in_hslen < ssl.in_msglen)) (hfuel : bytes.length + 2 ≤ fuel) :
    ∃ ret ssl' next, ssl.mbedtls_ssl_read_record_layer transform alert base state fuel = ok (ret, ssl', next) ∧
      Layer transform pending ssl.counters bytes ret ssl' next := by
  obtain ⟨ret, ssl', next, hfetch, hlayer⟩ :=
    @fetch_record_spec σ transform alert base pending fuel { ssl with in_msglen := 0, in_msg := [], in_hslen := 0 }
      state bytes hpeer ⟨h.idle, fun hne => absurd rfl hne, h.fits, h.wire⟩ rfl hfuel
  refine ⟨ret, ssl', next, ?_, hlayer⟩
  rw [SslInput.mbedtls_ssl_read_record_layer, if_neg (by simp [h.idle]), consume_done hdone]
  exact hfetch

/-- The record layer when handshake messages of the last record are left. -/
theorem read_record_layer_carried (h : Ahead transform pending ssl state bytes)
    (hleft : ssl.in_hslen ≠ 0 ∧ ssl.in_hslen < ssl.in_msglen) :
    ssl.mbedtls_ssl_read_record_layer transform alert base state fuel =
      ok (0, { ssl with
        in_msglen := ssl.in_msglen - ssl.in_hslen, in_msg := ssl.in_msg.drop ssl.in_hslen, in_hslen := 0 }, state) := by
  have hpositive : 0 < ssl.in_msglen - ssl.in_hslen := by omega
  simp [SslInput.mbedtls_ssl_read_record_layer, h.idle, SslInput.consume, hleft.1, hleft.2]

/-- A context whose record answers to a read with an error, or at `mbedtls_ssl_read` itself. -/
def Refused (ret : Int) (ssl : SslInput) : Prop :=
  ret < 0 ∧ ret ≠ MBEDTLS_ERR_SSL_CONN_EOF ∨ ret = 0 ∧ ssl.in_msgtype ≠ MBEDTLS_SSL_MSG_APPLICATION_DATA

/-- A handshake message is refused, and those behind it in its record stay. -/
theorem prepare_handshake_spec (h : Ahead transform pending ssl state bytes) (hhslen : ssl.in_hslen = 0)
    (hmsgtype : ssl.in_msgtype = MBEDTLS_SSL_MSG_HANDSHAKE) (hmsglen : ssl.in_msglen = ssl.in_msg.length) :
    ∃ ret ssl', ssl.mbedtls_ssl_prepare_handshake_record = (ret, ssl') ∧ Refused ret ssl' ∧
      ret ≠ MBEDTLS_ERR_SSL_NON_FATAL ∧ Ahead transform pending ssl' state bytes ∧ ssl'.counters = ssl.counters ∧
      refusals ssl.in_msg = .refused :: ssl'.carried := by
  rw [refusals]
  unfold SslInput.mbedtls_ssl_prepare_handshake_record
  by_cases hshort : ssl.in_msglen < mbedtls_ssl_hs_hdr_len
  · have hnone : ssl.carried = [] := by simp [SslInput.carried, hhslen]
    rw [if_pos hshort, dif_neg (by omega)]
    exact ⟨_, ssl, rfl, .inl (by decide), by decide, h, rfl, by rw [hnone]⟩
  · rw [if_neg hshort]
    have hahead : Ahead transform pending { ssl with in_hslen := handshake_length ssl.in_msg } state bytes :=
      ⟨h.idle, fun _ => ⟨hmsgtype, hmsglen⟩, h.fits, h.wire⟩
    have hnonzero : handshake_length ssl.in_msg ≠ 0 :=
      Nat.ne_of_gt (Nat.lt_of_lt_of_le (by decide) (Nat.le_add_right _ _))
    by_cases hlong : ssl.in_msglen < handshake_length ssl.in_msg
    · refine ⟨MBEDTLS_ERR_SSL_FEATURE_UNAVAILABLE, { ssl with in_hslen := handshake_length ssl.in_msg }, if_pos hlong,
        .inl (by decide), by decide, hahead, rfl, ?_⟩
      rw [dif_neg (by omega), SslInput.carried, if_neg (by simp only; omega)]
    · refine ⟨0, { ssl with in_hslen := handshake_length ssl.in_msg }, if_neg hlong,
        .inr ⟨rfl, by rw [hmsgtype]; decide⟩, by decide, hahead, rfl, ?_⟩
      by_cases hmore : handshake_length ssl.in_msg < ssl.in_msg.length
      · rw [dif_pos ⟨by omega, hmore⟩, SslInput.carried, if_pos ⟨hnonzero, by rw [hmsglen]; exact hmore⟩]
      · rw [dif_neg (by omega), SslInput.carried, if_neg (by simp only; omega)]

/-- A context without application data at hand that has these items ahead, in no more than
`bound` bytes. -/
def At (transform : SslTransform) (pending : σ → List UInt8 → Prop) (bound : Nat) (ssl : SslInput) (state : σ)
    (items : List Item) (ending : Ending) : Prop :=
  ∃ bytes, Ahead transform pending ssl state bytes ∧ bytes.length ≤ bound ∧ ssl.items transform bytes = items ∧
    ssl.ending transform bytes = ending

/-- What `mbedtls_ssl_read_record` returns at the end of a connection. -/
def Ending.ret : Ending → Int
  | .cut => MBEDTLS_ERR_SSL_CONN_EOF
  | .malformed => MBEDTLS_ERR_SSL_INVALID_RECORD

/-- What `mbedtls_ssl_read_record` comes to, by the item that is next. -/
inductive Answer (transform : SslTransform) (pending : σ → List UInt8 → Prop) (bound : Nat) (ending : Ending) :
    Option (Item × List Item) → Int → SslInput → σ → Prop where
  | ended {ssl : SslInput} {state : σ} (h : At transform pending bound ssl state [] ending) :
      Answer transform pending bound ending none ending.ret ssl state
  | data {content : List UInt8} {items : List Item} {ssl : SslInput} {state : σ}
      (h : At transform pending bound ssl state items ending)
      (hmsgtype : ssl.in_msgtype = MBEDTLS_SSL_MSG_APPLICATION_DATA) (hmsg : ssl.in_msg = content)
      (hmsglen : ssl.in_msglen = content.length) (hhslen : ssl.in_hslen = 0) :
      Answer transform pending bound ending (some (.data content, items)) 0 ssl state
  | refused {items : List Item} {ret : Int} {ssl : SslInput} {state : σ}
      (h : At transform pending bound ssl state items ending) (hrefused : Refused ret ssl) :
      Answer transform pending bound ending (some (.refused, items)) ret ssl state

/-- An answer that is no success and does not say that the connection has ended. -/
def NoEnd (ret : Int) : Prop := ret ≤ 0 ∧ ret ≠ MBEDTLS_ERR_SSL_CONN_EOF

instance (ret : Int) : Decidable (NoEnd ret) := inferInstanceAs (Decidable (_ ∧ _))

theorem ssl_decrypt_buf_noEnd (counters : InCounters) (in_msgtype : UInt8) (version message : List UInt8) :
    NoEnd (transform.ssl_decrypt_buf counters in_msgtype version message).ret := by
  have hle := transform.decrypt_le counters.in_ctr in_msgtype version message
  have hne := transform.decrypt_ne counters.in_ctr in_msgtype version message
  rcases hdecrypt : transform.decrypt counters.in_ctr in_msgtype version message with ⟨ret, in_msg, behind⟩
  rw [hdecrypt] at hle hne
  simp only [SslTransform.ssl_decrypt_buf, hdecrypt]
  generalize (if in_msg = [] then counters.nb_zero + 1 else 0) = nb_zero
  by_cases hret : ret ≠ 0
  · rw [if_pos hret]
    exact ⟨hle, hne⟩
  · rw [if_neg hret]
    by_cases hzero : nb_zero > 3
    · rw [if_pos hzero]
      exact (by decide : NoEnd MBEDTLS_ERR_SSL_INVALID_MAC)
    · rw [if_neg hzero]
      cases (increment_ctr counters.in_ctr).1 with
      | true => exact (by decide : NoEnd MBEDTLS_ERR_SSL_COUNTER_WRAPPING)
      | false => exact (by decide : NoEnd 0)

theorem ssl_prepare_record_content_noEnd (counters : InCounters) (in_msgtype : UInt8) (version message : List UInt8) :
    NoEnd (transform.ssl_prepare_record_content counters in_msgtype version message).ret := by
  have hdecrypt := @ssl_decrypt_buf_noEnd transform counters in_msgtype version message
  simp only [SslTransform.ssl_prepare_record_content]
  generalize transform.ssl_decrypt_buf counters in_msgtype version message = decrypted at hdecrypt
  by_cases hret : decrypted.ret ≠ 0
  · rwa [if_pos hret]
  · rw [if_neg hret]
    by_cases hlong : decrypted.in_msg.length > MBEDTLS_SSL_MAX_CONTENT_LEN
    · rw [if_pos hlong]
      exact (by decide : NoEnd MBEDTLS_ERR_SSL_INVALID_RECORD)
    · rwa [if_neg hlong]

theorem carried_of_hslen (h : ssl.in_hslen = 0) : ssl.carried = [] := by simp [SslInput.carried, h]

/-- An alert that is not ignored. -/
theorem alert_answer_refused {message : UInt8 × UInt8}
    (h : SslInput.alert_answer message ≠ MBEDTLS_ERR_SSL_NON_FATAL) :
    SslInput.alert_answer message < 0 ∧ SslInput.alert_answer message ≠ MBEDTLS_ERR_SSL_CONN_EOF ∨
      SslInput.alert_answer message = 0 := by
  simp only [SslInput.alert_answer] at h ⊢
  split
  · exact .inl (by decide)
  · split
    · exact .inl (by decide)
    · split
      · exact .inr rfl
      · simp_all

/-- What `mbedtls_ssl_handle_message_type` makes of a record that is decrypted. -/
theorem handle_message_type_spec (h : Ahead transform pending ssl state rest) {in_msgtype : UInt8}
    {decrypted : Decrypted} (hopened : Opened ssl in_msgtype decrypted) (hret : decrypted.ret = 0) {bound : Nat}
    (hbound : rest.length ≤ bound) :
    ∃ ret ssl', ssl.mbedtls_ssl_handle_message_type = (ret, ssl') ∧
      (ret = MBEDTLS_ERR_SSL_NON_FATAL ∧ ssl' = ssl ∧ items_of in_msgtype decrypted = [.ignored] ∨
        ret ≠ MBEDTLS_ERR_SSL_NON_FATAL ∧ Answer transform pending bound (ssl.ending transform rest)
          (next_item (items_of in_msgtype decrypted ++ ssl.items transform rest)) ret ssl' state) := by
  have hmsgtype := hopened.msgtype
  rw [items_of, if_neg (by simp [hret]), SslInput.mbedtls_ssl_handle_message_type, hmsgtype]
  by_cases hhandshake : in_msgtype = MBEDTLS_SSL_MSG_HANDSHAKE
  · rw [if_pos hhandshake, if_pos hhandshake, ← hopened.msg]
    obtain ⟨ret, ssl', hprepare, hrefused, hfatal, hahead, hcounters, hitems⟩ := prepare_handshake_spec h hopened.hslen
      (hmsgtype.trans hhandshake) (hopened.msglen.trans (by rw [hopened.msg]))
    refine ⟨ret, ssl', hprepare, .inr ⟨hfatal, ?_⟩⟩
    have hnone : ssl.carried = [] := carried_of_hslen hopened.hslen
    rw [hitems]
    refine .refused ⟨rest, hahead, hbound, ?_, by rw [SslInput.ending, hcounters, SslInput.ending]⟩ hrefused
    rw [SslInput.items, SslInput.items, hnone, hcounters]
    rfl
  rw [if_neg hhandshake, if_neg hhandshake]
  by_cases halert : in_msgtype = MBEDTLS_SSL_MSG_ALERT
  · rw [if_pos halert, if_pos halert, hopened.msg, hopened.behind]
    refine ⟨_, ssl, rfl, ?_⟩
    by_cases hfatal : SslInput.alert_answer (SslInput.alert_message decrypted.in_msg decrypted.behind) =
        MBEDTLS_ERR_SSL_NON_FATAL
    · exact .inl ⟨hfatal, rfl, if_pos hfatal⟩
    · rw [if_neg hfatal]
      refine .inr ⟨hfatal, .refused ⟨rest, h, hbound, rfl, rfl⟩ ?_⟩
      rcases alert_answer_refused hfatal with hanswer | hanswer
      · exact .inl hanswer
      · refine .inr ⟨hanswer, ?_⟩
        rw [hmsgtype, halert]
        decide
  rw [if_neg halert, if_neg halert]
  refine ⟨0, ssl, rfl, .inr ⟨by decide, ?_⟩⟩
  by_cases hdata : in_msgtype = MBEDTLS_SSL_MSG_APPLICATION_DATA
  · rw [if_pos hdata]
    exact .data ⟨rest, h, hbound, rfl, rfl⟩ (hmsgtype.trans hdata) hopened.msg hopened.msglen hopened.hslen
  · rw [if_neg hdata]
    exact .refused ⟨rest, h, hbound, rfl, rfl⟩ (.inr ⟨rfl, fun hmsg => hdata (hmsgtype.symm.trans hmsg)⟩)

/-- A pass that has a record, by what `mbedtls_ssl_handle_message_type` makes of it. -/
theorem read_record_pass_handled {read handled : SslInput} {next : σ} {ret : Int}
    (hlayer : ssl.mbedtls_ssl_read_record_layer transform alert base state fuel = ok (0, read, next))
    (hhandle : read.mbedtls_ssl_handle_message_type = (ret, handled)) :
    SslInput.read_record_pass transform alert base fuel (ssl, state) =
      if ret = MBEDTLS_ERR_SSL_NON_FATAL then ok (.cont (handled, next)) else ok (.done (ret, handled, next)) := by
  simp only [SslInput.read_record_pass, hlayer, bind_ok, ne_eq, not_true, if_false, hhandle]

/-- One pass of the loop: it ends with what the next item says, or passes over an item that is
ignored. -/
theorem read_record_pass_spec (hpeer : Peer alert base pending) (h : Ahead transform pending ssl state bytes)
    {bound : Nat} (hbound : bytes.length ≤ bound) (hfuel : bound + 2 ≤ fuel) :
    (∃ ret ssl' next, SslInput.read_record_pass transform alert base fuel (ssl, state) =
        ok (.done (ret, ssl', next)) ∧
      Answer transform pending bound (ssl.ending transform bytes) (next_item (ssl.items transform bytes)) ret ssl'
        next) ∨
    ∃ ssl' next rest, SslInput.read_record_pass transform alert base fuel (ssl, state) = ok (.cont (ssl', next)) ∧
      Ahead transform pending ssl' next rest ∧ rest.length < bytes.length ∧
      ssl.items transform bytes = .ignored :: ssl'.items transform rest ∧
      ssl.ending transform bytes = ssl'.ending transform rest := by
  by_cases hleft : ssl.in_hslen ≠ 0 ∧ ssl.in_hslen < ssl.in_msglen
  · -- a handshake message that an earlier one has left
    obtain ⟨hmsgtype, hmsglen⟩ := h.handshake hleft.1
    obtain ⟨ret, ssl', hprepare, hrefused, hfatal, hahead, hcounters, hitems⟩ :=
      @prepare_handshake_spec σ transform pending { ssl with
        in_msglen := ssl.in_msglen - ssl.in_hslen, in_msg := ssl.in_msg.drop ssl.in_hslen, in_hslen := 0 } state bytes
        ⟨h.idle, fun hne => absurd rfl hne, h.fits, h.wire⟩ rfl hmsgtype (by rw [hmsglen, List.length_drop])
    refine .inl ⟨ret, ssl', state, ?_, ?_⟩
    · rw [read_record_pass_handled (read_record_layer_carried h hleft) ((if_pos hmsgtype).trans hprepare),
        if_neg hfatal]
    · have hall : ssl.items transform bytes = .refused :: ssl'.items transform bytes := by
        rw [SslInput.items, SslInput.carried, if_pos hleft, hitems, SslInput.items, hcounters, List.cons_append]
      rw [hall]
      exact .refused ⟨bytes, hahead, hbound, rfl, by rw [SslInput.ending, hcounters, SslInput.ending]⟩ hrefused
  · obtain ⟨ret, ssl', next, hlayer, hcases⟩ := @read_record_layer_spec σ transform alert base pending fuel ssl state
      bytes hpeer h hleft (by omega)
    have hnone : ssl.carried = [] := if_neg hleft
    cases hcases with
    | cut hahead hhslen hcounters hdecode =>
      refine .inl ⟨_, ssl', next, bind_eq_ok_iff.mpr ⟨_, hlayer, rfl⟩, ?_⟩
      rw [SslInput.items, SslInput.ending, hnone, hdecode]
      refine .ended ⟨bytes, hahead, hbound, ?_, ?_⟩
      · rw [SslInput.items, carried_of_hslen hhslen, hcounters, hdecode]
        rfl
      · rw [SslInput.ending, hcounters, hdecode]
    | malformed hahead hhslen hcounters hdecode =>
      refine .inl ⟨_, ssl', next, bind_eq_ok_iff.mpr ⟨_, hlayer, rfl⟩, ?_⟩
      rw [SslInput.items, SslInput.ending, hnone, hdecode]
      refine .ended ⟨bytes, hahead, hbound, ?_, ?_⟩
      · rw [SslInput.items, carried_of_hslen hhslen, hcounters, hdecode]
        rfl
      · rw [SslInput.ending, hcounters, hdecode]
    | @record _ _ in_msgtype version message rest decrypted hahead hless hdecrypted hopened hdecode =>
      have hnoEnd : NoEnd decrypted.ret := hdecrypted ▸ ssl_prepare_record_content_noEnd _ _ _ _
      have hitems : ssl.items transform bytes = items_of in_msgtype decrypted ++ ssl'.items transform rest := by
        rw [SslInput.items, hnone, hdecode, SslInput.items, carried_of_hslen hopened.hslen, hopened.counters]
        rfl
      have hending : ssl.ending transform bytes = ssl'.ending transform rest := by
        rw [SslInput.ending, hdecode, SslInput.ending, hopened.counters]
      by_cases hret : decrypted.ret = 0
      · rw [hret] at hlayer
        obtain ⟨ret, handled, hhandle, ⟨rfl, rfl, hignored⟩ | ⟨hfatal, hanswer⟩⟩ :=
          handle_message_type_spec hahead hopened hret (show rest.length ≤ bound by omega)
        · refine .inr ⟨handled, next, rest, ?_, hahead, hless, ?_, hending⟩
          · rw [read_record_pass_handled hlayer hhandle, if_pos rfl]
          · rw [hitems, hignored, List.singleton_append]
        · refine .inl ⟨ret, handled, next, ?_, ?_⟩
          · rw [read_record_pass_handled hlayer hhandle, if_neg hfatal]
          · rw [hitems, hending]
            exact hanswer
      · -- a record that cannot be decrypted
        refine .inl ⟨_, ssl', next, bind_eq_ok_iff.mpr ⟨_, hlayer, if_pos hret⟩, ?_⟩
        rw [hitems, items_of, if_pos hret, hending]
        exact .refused ⟨rest, hahead, by omega, rfl, rfl⟩ (.inl ⟨lt_of_le_of_ne hnoEnd.1 hret, hnoEnd.2⟩)

/-- `mbedtls_ssl_read_record` goes to the next item that is not ignored. -/
theorem read_record_spec (hpeer : Peer alert base pending) {items : List Item} {ending : Ending} {bound : Nat}
    (h : At transform pending bound ssl state items ending) (hfuel : bound + 2 ≤ fuel) :
    ∃ ret ssl' next, ssl.mbedtls_ssl_read_record transform alert base state fuel = ok (ret, ssl', next) ∧
      Answer transform pending bound ending (next_item items) ret ssl' next := by
  have hloop : ∀ passes ssl state bytes, Ahead transform pending ssl state bytes → bytes.length ≤ bound →
      bytes.length < passes → ∃ ret ssl' next,
        loop (SslInput.read_record_pass transform alert base fuel) passes (ssl, state) = ok (ret, ssl', next) ∧
          Answer transform pending bound (ssl.ending transform bytes) (next_item (ssl.items transform bytes)) ret
            ssl' next := by
    intro passes
    induction passes with
    | zero => intro ssl state bytes _ _ hpasses; omega
    | succ passes ih =>
      intro ssl state bytes hahead hbound hpasses
      obtain ⟨ret, ssl', next, hpass, hanswer⟩ | ⟨ssl', next, rest, hpass, hahead', hless, hitems, hending⟩ :=
        read_record_pass_spec hpeer hahead hbound hfuel
      · exact ⟨ret, ssl', next, loop_done passes hpass, hanswer⟩
      · rw [loop_cont passes hpass, hitems, hending]
        exact ih ssl' next rest hahead' (by omega) (by omega)
  obtain ⟨bytes, hahead, hbound, rfl, rfl⟩ := h
  exact hloop fuel ssl state bytes hahead hbound (by omega)

/-- What a context is to its reader. -/
inductive Represents (transform : SslTransform) (pending : σ → List UInt8 → Prop) (bound : Nat) (ssl : SslInput)
    (state : σ) : TlsReader → Prop where
  | idle {items : List Item} {ending : Ending} (h : At transform pending bound ssl state items ending) :
      Represents transform pending bound ssl state ⟨[], items, ending⟩
  | reading {items : List Item} {ending : Ending}
      (h : At transform pending bound { ssl with in_offt := false } state items ending) (hoffset : ssl.in_offt = true)
      (hmsg : ssl.in_msg ≠ []) (hmsglen : ssl.in_msglen = ssl.in_msg.length) (hhslen : ssl.in_hslen = 0) :
      Represents transform pending bound ssl state ⟨ssl.in_msg, items, ending⟩

/-- The answer of `TlsStream::read` to one of `mbedtls_ssl_read`. -/
def answer_of (len : Int) (data : List UInt8) : RetVal UInt32 × List UInt8 :=
  (if len ≥ 0 then ⟨kOk, len.toNat.toUInt32⟩ else ⟨kEUnknown, 0⟩, data)

variable {items : List Item} {ending : Ending} {bound : Nat} {size : UInt32}

/-- Of a context that is not in a record of handshake messages only the counters and the bytes
fetched matter. -/
theorem At.congr (h : At transform pending bound ssl state items ending) (hhslen : ssl.in_hslen = 0)
    {other : SslInput} (hother : other.in_hslen = 0) (hidle : other.in_offt = false) (hhdr : other.in_hdr = ssl.in_hdr)
    (hcounters : other.counters = ssl.counters) : At transform pending bound other state items ending := by
  obtain ⟨bytes, hahead, hbound, rfl, rfl⟩ := h
  refine ⟨bytes, ⟨hidle, fun hne => absurd hother hne, hhdr ▸ hahead.fits, hhdr ▸ hahead.wire⟩, hbound, ?_, ?_⟩
  · rw [SslInput.items, SslInput.items, carried_of_hslen hhslen, carried_of_hslen hother, hcounters]
  · rw [SslInput.ending, SslInput.ending, hcounters]

theorem take_data_spec (h : At transform pending bound { ssl with in_offt := false } state items ending)
    (hhslen : ssl.in_hslen = 0) (hmsglen : ssl.in_msglen = ssl.in_msg.length) (unread : List UInt8) :
    ∃ len data ssl', ssl.take_data size.toNat = (len, data, ssl') ∧
      (TlsReader.give ⟨unread, items, ending⟩ ssl.in_msg size).1 = answer_of len data ∧
      Represents transform pending bound ssl' state (TlsReader.give ⟨unread, items, ending⟩ ssl.in_msg size).2 := by
  have hcount : (if size.toNat < ssl.in_msglen then size.toNat else ssl.in_msglen) =
      (ssl.in_msg.take size.toNat).length := by
    rw [List.length_take, hmsglen]
    split <;> omega
  have htake : ssl.in_msg.take (ssl.in_msg.take size.toNat).length = ssl.in_msg.take size.toNat := by
    rw [List.take_eq_take_iff, List.length_take]
    omega
  have hdrop : ssl.in_msg.drop (ssl.in_msg.take size.toNat).length = ssl.in_msg.drop size.toNat := by
    rw [List.drop_eq_drop_iff, List.length_take]
    omega
  have hleft : ssl.in_msglen - (ssl.in_msg.take size.toNat).length = (ssl.in_msg.drop size.toNat).length := by
    rw [List.length_take, List.length_drop, hmsglen]
    omega
  refine ⟨_, _, _, rfl, ?_, ?_⟩
  · simp only [hcount, htake, TlsReader.give, answer_of, ge_iff_le, Int.natCast_nonneg, if_true, Int.toNat_natCast]
  · simp only [hcount, hdrop, hleft, TlsReader.give]
    by_cases hdone : ssl.in_msg.drop size.toNat = []
    · rw [hdone]
      exact .idle (h.congr hhslen hhslen rfl rfl rfl)
    · have hmore : (ssl.in_msg.drop size.toNat).length ≠ 0 := fun hzero => hdone (List.length_eq_zero_iff.mp hzero)
      exact @Represents.reading σ transform pending bound _ state items ending
        (h.congr hhslen hhslen rfl rfl rfl) (decide_eq_true hmore) hdone rfl hhslen

/-- Sending an alert leaves what is ahead. -/
theorem At.after_alert (hpeer : Peer alert base pending) (h : At transform pending bound ssl state items ending)
    (level message : UInt8) : ∃ ret next, alert state level message = ok (ret, next) ∧ ret ≤ 0 ∧
      At transform pending bound ssl next items ending := by
  obtain ⟨bytes, ⟨hidle, hhandshake, hfits, rest, hpending, hbytes⟩, hbound, hitems, hending⟩ := h
  obtain ⟨ret, next, halert, hret, hnext⟩ := hpeer.alerts state rest level message hpending
  exact ⟨ret, next, halert, hret, bytes, ⟨hidle, hhandshake, hfits, rest, hnext, hbytes⟩, hbound, hitems, hending⟩

theorem refuse_handshake_spec (hpeer : Peer alert base pending)
    (h : At transform pending bound ssl state items ending) :
    ∃ ret next, ssl.refuse_handshake transform alert state = ok (ret, next) ∧ ret < 0 ∧
      At transform pending bound ssl next items ending := by
  unfold SslInput.refuse_handshake
  by_cases hother : ssl.in_msg.head? ≠ some MBEDTLS_SSL_HS_HELLO_REQUEST ∨ ssl.in_hslen ≠ mbedtls_ssl_hs_hdr_len
  · rw [if_pos hother]
    exact ⟨_, state, rfl, by decide, h⟩
  · rw [if_neg hother]
    by_cases hversion : transform.minor_ver < 1
    · rw [if_pos hversion]
      exact ⟨_, state, rfl, by decide, h⟩
    · rw [if_neg hversion]
      obtain ⟨ret, next, halert, hret, hnext⟩ :=
        h.after_alert hpeer MBEDTLS_SSL_ALERT_LEVEL_WARNING MBEDTLS_SSL_ALERT_MSG_NO_RENEGOTIATION
      refine ⟨_, next, bind_eq_ok_iff.mpr ⟨_, halert, rfl⟩, ?_, hnext⟩
      by_cases hzero : ret = 0
      · rw [if_neg (by simp [hzero])]
        decide
      · rw [if_pos hzero]
        omega

/-- A record without application data makes the read fail. -/
theorem read_content_refused (hpeer : Peer alert base pending) (h : At transform pending bound ssl state items ending)
    (hmsgtype : ssl.in_msgtype ≠ MBEDTLS_SSL_MSG_APPLICATION_DATA) (len : Nat) :
    ∃ ret next, ssl.read_content transform alert state len = ok (ret, [], ssl, next) ∧ ret < 0 ∧
      At transform pending bound ssl next items ending := by
  unfold SslInput.read_content
  by_cases hhandshake : ssl.in_msgtype = MBEDTLS_SSL_MSG_HANDSHAKE
  · rw [if_pos hhandshake]
    obtain ⟨ret, next, hrefuse, hret, hnext⟩ := refuse_handshake_spec hpeer h
    exact ⟨ret, next, bind_eq_ok_iff.mpr ⟨_, hrefuse, rfl⟩, hret, hnext⟩
  · rw [if_neg hhandshake]
    by_cases halert : ssl.in_msgtype = MBEDTLS_SSL_MSG_ALERT
    · rw [if_pos halert]
      exact ⟨_, state, rfl, by decide, h⟩
    · rw [if_neg halert, if_pos hmsgtype]
      exact ⟨_, state, rfl, by decide, h⟩

theorem read_content_data (hmsgtype : ssl.in_msgtype = MBEDTLS_SSL_MSG_APPLICATION_DATA) (len : Nat) :
    ssl.read_content transform alert state len =
      (let (ret, data, ssl) := { ssl with in_offt := true }.take_data len
      ok (ret, data, ssl, state)) := by
  have hhandshake : ssl.in_msgtype ≠ MBEDTLS_SSL_MSG_HANDSHAKE := by
    rw [hmsgtype]
    decide
  have halert : ssl.in_msgtype ≠ MBEDTLS_SSL_MSG_ALERT := by
    rw [hmsgtype]
    decide
  rw [SslInput.read_content, if_neg hhandshake, if_neg halert, if_neg (not_not.mpr hmsgtype)]

/-- `mbedtls_ssl_read` with the answer of the record layer. -/
theorem finish_spec (hpeer : Peer alert base pending) {ret : Int}
    (h : Answer transform pending bound ending (next_item items) ret ssl state) :
    ∃ len data ssl' next,
      (if ret ≠ 0 then ok (SslInput.read_error ret, [], ssl, state)
        else ssl.read_content transform alert state size.toNat) = ok (len, data, ssl', next) ∧
      (TlsReader.read_item ⟨[], items, ending⟩ size).1 = answer_of len data ∧
      Represents transform pending bound ssl' next (TlsReader.read_item ⟨[], items, ending⟩ size).2 := by
  unfold TlsReader.read_item
  generalize next_item items = next at h
  cases h with
  | ended hat =>
    cases ending with
    | cut => exact ⟨0, [], ssl, state, rfl, rfl, .idle hat⟩
    | malformed => exact ⟨MBEDTLS_ERR_SSL_INVALID_RECORD, [], ssl, state, rfl, rfl, .idle hat⟩
  | @data content left _ _ hat hmsgtype hmsg hmsglen hhslen =>
    subst hmsg
    obtain ⟨len, data, ssl', htake, hanswer, hrepresents⟩ :=
      @take_data_spec σ transform pending { ssl with in_offt := true } state left ending bound size
        (hat.congr hhslen hhslen rfl rfl rfl) hhslen hmsglen []
    refine ⟨len, data, ssl', state, ?_, hanswer, hrepresents⟩
    rw [if_neg (by decide), read_content_data hmsgtype, htake]
  | @refused left _ _ _ hat hrefused =>
    rcases hrefused with ⟨hnegative, hne⟩ | ⟨rfl, hmsgtype⟩
    · refine ⟨ret, [], ssl, state, ?_, ?_, .idle hat⟩
      · rw [if_pos (by omega), SslInput.read_error, if_neg hne]
      · rw [answer_of, if_neg (by omega)]
        rfl
    · obtain ⟨ret, next, hcontent, hnegative, hnext⟩ := read_content_refused hpeer hat hmsgtype size.toNat
      refine ⟨ret, [], ssl, next, hcontent, ?_, .idle hnext⟩
      rw [answer_of, if_neg (by omega)]
      rfl

theorem TlsReader.read_empty {left : List Item} (h : next_item items = some (.data [], left)) :
    TlsReader.read ⟨[], items, ending⟩ size = TlsReader.read_item ⟨[], left, ending⟩ size := by
  simp [TlsReader.read, h]

theorem TlsReader.read_other (h : ∀ left, next_item items ≠ some (.data [], left)) :
    TlsReader.read ⟨[], items, ending⟩ size = TlsReader.read_item ⟨[], items, ending⟩ size := by
  unfold TlsReader.read
  rw [if_neg (by simp)]
  split
  · next left hnext => exact absurd hnext (h left)
  · rfl

/-- A record is taken for an empty one of application data exactly if it is one. -/
theorem Answer.empty_iff {item : Option (Item × List Item)} {ret : Int}
    (h : Answer transform pending bound ending item ret ssl state) :
    (ret = 0 ∧ ssl.in_msglen = 0 ∧ ssl.in_msgtype = MBEDTLS_SSL_MSG_APPLICATION_DATA) ↔
      ∃ left, item = some (.data [], left) := by
  cases h with
  | ended hat => cases ending <;> simp [Ending.ret, MBEDTLS_ERR_SSL_CONN_EOF, MBEDTLS_ERR_SSL_INVALID_RECORD]
  | data hat hmsgtype hmsg hmsglen hhslen => simp [hmsgtype, hmsglen]
  | refused hat hrefused =>
    refine iff_of_false ?_ (by simp)
    rintro ⟨rfl, -, hmsgtype⟩
    rcases hrefused with ⟨hnegative, -⟩ | ⟨-, hother⟩
    · exact absurd hnegative (by decide)
    · exact hother hmsgtype

theorem mbedtls_ssl_read_spec (hpeer : Peer alert base pending) {reader : TlsReader}
    (h : Represents transform pending bound ssl state reader) (hfuel : bound + 2 ≤ fuel) :
    ∃ len data ssl' next,
      ssl.mbedtls_ssl_read transform alert base state size.toNat fuel = ok (len, data, ssl', next) ∧
      (reader.read size).1 = answer_of len data ∧
      Represents transform pending bound ssl' next (reader.read size).2 := by
  cases h with
  | @reading items ending hat hoffset hmsg hmsglen hhslen =>
    obtain ⟨len, data, ssl', htake, hspec⟩ :=
      @take_data_spec σ transform pending ssl state items ending bound size hat hhslen hmsglen ssl.in_msg
    refine ⟨len, data, ssl', state, ?_, ?_⟩
    · simp only [SslInput.mbedtls_ssl_read, hoffset, if_true, htake]
    · rw [TlsReader.read, if_pos hmsg]
      exact hspec
  | @idle items ending hat =>
    have hidle : ssl.in_offt = false := by
      obtain ⟨_, hahead, -⟩ := hat
      exact hahead.idle
    obtain ⟨ret, read, next, hread, hanswer⟩ := read_record_spec hpeer hat hfuel
    rw [SslInput.mbedtls_ssl_read, if_neg (by simp [hidle]), hread, bind_ok]
    by_cases hempty : ret = 0 ∧ read.in_msglen = 0 ∧ read.in_msgtype = MBEDTLS_SSL_MSG_APPLICATION_DATA
    · -- an empty record is passed over
      obtain ⟨left, hleft⟩ := hanswer.empty_iff.mp hempty
      have hat' : At transform pending bound read next left ending := by
        rw [hleft] at hanswer
        cases hanswer with
        | data hat => exact hat
      obtain ⟨ret', read', next', hread', hanswer'⟩ := read_record_spec hpeer hat' hfuel
      rw [TlsReader.read_empty hleft]
      simp only [hempty, ne_eq, not_true, if_false, and_self, if_true, hread', bind_ok]
      exact finish_spec hpeer hanswer'
    · have hother : ∀ left, next_item items ≠ some (.data [], left) := fun left hleft =>
        hempty (hanswer.empty_iff.mpr ⟨left, hleft⟩)
      rw [TlsReader.read_other hother]
      obtain ⟨len, data, ssl', next', hfinish, hspec⟩ :=
        @finish_spec σ transform alert base pending read next items ending bound size hpeer ret hanswer
      refine ⟨len, data, ssl', next', ?_, hspec⟩
      rw [← hfinish]
      by_cases hret : ret = 0
      · have hnot : ¬ (read.in_msglen = 0 ∧ read.in_msgtype = MBEDTLS_SSL_MSG_APPLICATION_DATA) :=
          fun hboth => hempty ⟨hret, hboth⟩
        simp only [hret, ne_eq, not_true, if_false, hnot]
      · simp only [hret, ne_eq, not_false_eq_true, if_true]

namespace TlsStream

variable {self : TlsStream}

theorem read_data_spec (hopened : self.m_is_opened_session = true) (hset_up : self.m_contexts = .set_up true)
    (hpeer : Peer alert base pending) {reader : TlsReader}
    (h : Represents transform pending bound ssl state reader) (hfuel : bound + 2 ≤ fuel) (size : UInt32) :
    ∃ ssl' next,
      self.read_data transform alert base ssl state size fuel = ok ((reader.read size).1, ssl', next) ∧
      Represents transform pending bound ssl' next (reader.read size).2 := by
  obtain ⟨len, data, ssl', next, hread, hanswer, hrepresents⟩ :=
    @mbedtls_ssl_read_spec σ transform alert base pending fuel ssl state bound size hpeer reader h hfuel
  refine ⟨ssl', next, ?_, hrepresents⟩
  have hanswers : self.read len = ok (answer_of len data).1 := by
    simp only [read, transfer, hopened, not_true, if_false, ssl_transfer, hset_up, bind_ok, answer_of]
    split <;> rfl
  rw [hanswer, read_data, if_pos ⟨hopened, hset_up⟩]
  exact bind_eq_ok_iff.mpr ⟨_, hread, bind_eq_ok_iff.mpr ⟨_, hanswers, rfl⟩⟩

theorem reads_refine (hopened : self.m_is_opened_session = true) (hset_up : self.m_contexts = .set_up true)
    (hpeer : Peer alert base pending) {reader : TlsReader}
    (h : Represents transform pending bound ssl state reader) (hfuel : bound + 2 ≤ fuel) (sizes : List UInt32) :
    ∃ ssl' next, self.reads transform alert base fuel sizes ssl state = ok (reader.reads sizes, ssl', next) := by
  induction sizes generalizing ssl state reader with
  | nil => exact ⟨ssl, state, rfl⟩
  | cons size sizes ih =>
    obtain ⟨read, next, hread, hrepresents⟩ := read_data_spec hopened hset_up hpeer h hfuel size
    obtain ⟨ssl', next', hreads⟩ := ih hrepresents
    exact ⟨ssl', next', bind_eq_ok_iff.mpr ⟨_, hread, bind_eq_ok_iff.mpr ⟨_, hreads, rfl⟩⟩⟩

end TlsStream

/-- A context as the handshake leaves it: with nothing of its last record left. -/
structure SslInput.Established (ssl : SslInput) : Prop where
  idle : ssl.in_offt = false
  hdr : ssl.in_hdr = []
  consumed : ssl.in_hslen = 0 ∨ ssl.in_msgtype = MBEDTLS_SSL_MSG_HANDSHAKE ∧ ssl.in_hslen = ssl.in_msglen ∧
    ssl.in_msglen = ssl.in_msg.length

theorem SslInput.Established.represents (h : ssl.Established) (hpending : pending state bytes) :
    Represents transform pending bytes.length ssl state (TlsReader.start transform ssl.counters bytes) := by
  have hcarried : ssl.carried = [] := by
    refine if_neg ?_
    rcases h.consumed with hconsumed | ⟨-, hconsumed, -⟩ <;> omega
  refine .idle ⟨bytes, ⟨h.idle, fun hne => ?_, ?_, bytes, hpending, ?_⟩, Nat.le_refl _, ?_, rfl⟩
  · rcases h.consumed with hconsumed | ⟨hmsgtype, -, hmsglen⟩
    · exact absurd hconsumed hne
    · exact ⟨hmsgtype, hmsglen⟩
  · rw [h.hdr]
    trivial
  · rw [h.hdr, List.nil_append]
  · rw [SslInput.items, hcarried, List.nil_append]

/-- The reads of a session over any connection, however the bytes that come over it are cut up,
are those of the reader of these bytes. -/
theorem TlsStream.reads_eq_reader {self : TlsStream} (hopened : self.m_is_opened_session = true)
    (hset_up : self.m_contexts = .set_up true) (hpeer : Peer alert base pending) (hssl : ssl.Established)
    (hpending : pending state bytes) (hfuel : bytes.length + 2 ≤ fuel) (sizes : List UInt32) :
    ∃ ssl' next, self.reads transform alert base fuel sizes ssl state =
      ok ((TlsReader.start transform ssl.counters bytes).reads sizes, ssl', next) :=
  reads_refine hopened hset_up hpeer (hssl.represents hpending) hfuel sizes

end Refinement

section Example

/-- No cipher; behind a content stand zeros. -/
def SslTransform.plain : SslTransform where
  minlen := 0
  decrypt _ _ _ message := (0, message, (0, 0))
  decrypt_le _ _ _ _ := Int.le_refl 0
  decrypt_ne _ _ _ _ := (by decide : (0 : Int) ≠ MBEDTLS_ERR_SSL_CONN_EOF)

def SslInput.fresh : SslInput where
  counters := { in_ctr := [0, 0, 0, 0, 0, 0, 0, 0] }

theorem SocketStream.cutOff {σ : Type} {conn : Stream σ} {pending : σ → List UInt8 → Prop}
    (hconn : conn.CutOff pending) : (SocketStream conn).CutOff (Socket.Open pending) where
  delivers := SocketStream.delivers hconn.delivers
  ends := by
    rintro socket size ⟨state, hsocket, hpending⟩ hsize
    obtain ⟨ret, next, hread, hnext⟩ := hconn.ends state size hpending hsize
    have hnonzero : size ≠ 0 := by
      rintro rfl
      exact absurd hsize (by decide)
    refine ⟨ret, { m_context := some next }, ?_, next, rfl, hnext⟩
    simp only [SocketStream, hsocket, if_neg hnonzero, hread, bind_ok]

theorem Wire.stream_cutOff : Wire.stream.CutOff Wire.Pending where
  delivers := Wire.stream_delivers
  ends := by
    rintro ⟨segments, sent⟩ size ⟨hsegments, hbytes⟩ -
    cases segments with
    | nil => exact ⟨kESocketClosed, _, rfl, hsegments, rfl⟩
    | cons segment segments =>
      rw [List.flatten_cons, List.append_eq_nil_iff] at hbytes
      exact absurd (List.mem_cons.mpr (.inl hbytes.1.symm)) hsegments

/-- An alert that is not sent. -/
def no_alert {σ : Type} (state : σ) (_ _ : UInt8) : Exec (Int × σ) := ok (0, state)

theorem peer_no_alert {σ : Type} {conn : Stream σ} {pending : σ → List UInt8 → Prop} (hconn : conn.CutOff pending) :
    Peer no_alert (SocketStream conn) (Socket.Open pending) where
  cutOff := SocketStream.cutOff hconn
  alerts state _ _ _ hpending := ⟨0, state, rfl, Int.le_refl 0, hpending⟩

/-- A record of two bytes that comes in three segments, behind an alert that is passed over, and
the beginning of another. -/
theorem reads_eq_reader_segments :
    (TlsReader.start .plain SslInput.fresh.counters [21, 3, 3, 0, 2, 1, 90, 23, 3, 3, 0, 2, 72, 105, 23, 3]).reads
        [1, 8, 8] = [(⟨kOk, 1⟩, [72]), (⟨kOk, 1⟩, [105]), (⟨kOk, 0⟩, [])] ∧
      ∃ ssl next, TlsStream.session.reads .plain no_alert (SocketStream Wire.stream) 18 [1, 8, 8] .fresh
        { m_context := some { segments := [[21, 3, 3, 0], [2, 1, 90, 23, 3, 3, 0, 2, 72], [105, 23, 3]] } } =
          ok ((TlsReader.start .plain SslInput.fresh.counters
            [21, 3, 3, 0, 2, 1, 90, 23, 3, 3, 0, 2, 72, 105, 23, 3]).reads [1, 8, 8], ssl, next) := by
  refine ⟨?_, TlsStream.reads_eq_reader rfl rfl (peer_no_alert Wire.stream_cutOff) ⟨rfl, rfl, .inl rfl⟩
    ⟨_, rfl, by decide⟩ (by decide) [1, 8, 8]⟩
  have hdecode : SslTransform.plain.decode SslInput.fresh.counters
      [21, 3, 3, 0, 2, 1, 90, 23, 3, 3, 0, 2, 72, 105, 23, 3] = ([.ignored, .data [72, 105]], .cut) := by
    rw [decode_record (by decide) (by decide) rfl, show be_nat [0, 2] = 2 from rfl, List.drop_succ_cons,
      List.drop_succ_cons, List.drop_zero, decode_record (by decide) (by decide) rfl,
      show be_nat [0, 2] = 2 from rfl, List.drop_succ_cons, List.drop_succ_cons, List.drop_zero,
      decode_short _ (by decide)]
    rfl
  rw [TlsReader.start, hdecode]
  rfl

end Example

end kfw.net

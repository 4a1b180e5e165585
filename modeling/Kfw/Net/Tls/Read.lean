import Kfw.Net.Tls.Write

open exec Result kfw.io

namespace kfw.net

def MBEDTLS_ERR_SSL_FEATURE_UNAVAILABLE : Int := -0x7080
def MBEDTLS_ERR_SSL_INVALID_MAC : Int := -0x7180
def MBEDTLS_ERR_SSL_INVALID_RECORD : Int := -0x7200
def MBEDTLS_ERR_SSL_CONN_EOF : Int := -0x7280
def MBEDTLS_ERR_SSL_UNEXPECTED_MESSAGE : Int := -0x7700
def MBEDTLS_ERR_SSL_FATAL_ALERT_MESSAGE : Int := -0x7780
def MBEDTLS_ERR_SSL_PEER_CLOSE_NOTIFY : Int := -0x7880
def MBEDTLS_ERR_SSL_INTERNAL_ERROR : Int := -0x6C00
def MBEDTLS_ERR_SSL_NON_FATAL : Int := -0x6680

def MBEDTLS_SSL_MSG_CHANGE_CIPHER_SPEC : UInt8 := 20
def MBEDTLS_SSL_MSG_ALERT : UInt8 := 21
def MBEDTLS_SSL_MSG_HANDSHAKE : UInt8 := 22

def MBEDTLS_SSL_ALERT_LEVEL_WARNING : UInt8 := 1
def MBEDTLS_SSL_ALERT_LEVEL_FATAL : UInt8 := 2

def MBEDTLS_SSL_ALERT_MSG_CLOSE_NOTIFY : UInt8 := 0
def MBEDTLS_SSL_ALERT_MSG_UNEXPECTED_MESSAGE : UInt8 := 10
def MBEDTLS_SSL_ALERT_MSG_BAD_RECORD_MAC : UInt8 := 20
def MBEDTLS_SSL_ALERT_MSG_NO_RENEGOTIATION : UInt8 := 100

def MBEDTLS_SSL_HS_HELLO_REQUEST : UInt8 := 0

def MBEDTLS_SSL_COMPRESSION_ADD : Nat := 0
def MBEDTLS_SSL_MAC_ADD : Nat := 48
def MBEDTLS_SSL_PADDING_ADD : Nat := 256

/-- The 29 are the counter, the header and the IV. -/
def MBEDTLS_SSL_BUFFER_LEN : Nat :=
  MBEDTLS_SSL_MAX_CONTENT_LEN + MBEDTLS_SSL_COMPRESSION_ADD + 29 + MBEDTLS_SSL_MAC_ADD + MBEDTLS_SSL_PADDING_ADD

/-- `in_hdr - in_buf`: the room of the counter in front of the header. -/
def in_hdr_offset : Nat := 8

def mbedtls_ssl_hdr_len : Nat := 5
def mbedtls_ssl_hs_hdr_len : Nat := 4

/-- The number that bytes make up from the highest to the lowest. -/
def be_nat (bytes : List UInt8) : Nat := bytes.foldl (fun value byte => (value <<< 8) ||| byte.toNat) 0

/-- What counts the records that have come in; `in_ctr` is given from its last byte to its
first. -/
structure InCounters where
  in_ctr : List UInt8
  nb_zero : Nat := 0

/-- A record that `ssl_decrypt_buf` has gone through: its answer, the content, and the two
bytes that stand behind the content in the buffer. -/
structure Decrypted where
  ret : Int
  in_msg : List UInt8
  behind : UInt8 × UInt8 := (0, 0)
  counters : InCounters

/-- What does not change on the reading side of a session of TLS 1.2 once the handshake is
over. `decrypt` is the cipher with its MAC: from the counter, the type, the two version bytes
and the message of a record it gives 0 or a negative error, the content and what stands
behind it. -/
structure SslTransform where
  major_ver : UInt8 := 3
  minor_ver : UInt8 := 3
  max_minor_ver : UInt8 := 3
  /-- `in_msg - in_iv`, the explicit part of the IV -/
  ivlen : Nat := 0
  minlen : Nat
  decrypt : List UInt8 → UInt8 → List UInt8 → List UInt8 → Int × List UInt8 × (UInt8 × UInt8)
  decrypt_le : ∀ ctr msgtype version message, (decrypt ctr msgtype version message).1 ≤ 0
  decrypt_ne : ∀ ctr msgtype version message, (decrypt ctr msgtype version message).1 ≠ MBEDTLS_ERR_SSL_CONN_EOF

/-- The part of an mbedtls context that reading changes. `in_hdr` are the `in_left` bytes from
there on, `in_msg` is what is left of the content of a record, from `in_offt` on if that is
not null. -/
structure SslInput where
  counters : InCounters
  in_hdr : List UInt8 := []
  in_msgtype : UInt8 := 0
  in_msglen : Nat := 0
  in_msg : List UInt8 := []
  behind : UInt8 × UInt8 := (0, 0)
  in_offt : Bool := false
  in_hslen : Nat := 0

variable {σ : Type}

/-- The callback that mbedtls receives with: the value of the stream's answer as an `int`,
whether it failed or not. -/
def ssl_recv (base : Stream σ) (state : σ) (len : Nat) : Exec (Int × List UInt8 × σ) := do
  let (r, data, state) ← base.read state len.toUInt32
  ok (r.val.toInt32.toInt, data, state)

/-- Where the loop of `mbedtls_ssl_fetch_input` stands. -/
structure Fetching (σ : Type) where
  in_hdr : List UInt8
  base_state : σ

/-- One pass through the loop of `mbedtls_ssl_fetch_input`. If the callback counts more bytes
than it put in the buffer, those of an earlier record would be taken for them. -/
def fetch_pass (base : Stream σ) (nb_want : Nat) (fetching : Fetching σ) :
    Exec (Flow (Fetching σ) (Int × Fetching σ)) :=
  let { in_hdr, base_state } := fetching
  if in_hdr.length < nb_want then do
    let (ret, data, base_state) ← ssl_recv base base_state (nb_want - in_hdr.length)
    if ret = 0 then ok (.done (MBEDTLS_ERR_SSL_CONN_EOF, { in_hdr, base_state }))
    else if ret < 0 then ok (.done (ret, { in_hdr, base_state }))
    else if data.length < ret.toNat then fail .invalid_access
    else ok (.cont { in_hdr := in_hdr ++ data.take ret.toNat, base_state })
  else ok (.done (0, fetching))

namespace SslTransform

/-- The checks of `ssl_parse_record_header` that fail without an alert. -/
def accepts_header (transform : SslTransform) (major_ver minor_ver : UInt8) (in_msglen : Nat) : Bool :=
  major_ver = transform.major_ver && minor_ver ≤ transform.max_minor_ver &&
    in_msglen ≤ MBEDTLS_SSL_BUFFER_LEN - (in_hdr_offset + mbedtls_ssl_hdr_len + transform.ivlen) &&
    transform.minlen ≤ in_msglen &&
    (transform.minor_ver < 1 || in_msglen ≤ transform.minlen + MBEDTLS_SSL_MAX_CONTENT_LEN + 256)

/-- `ssl_decrypt_buf` of the message of a record: a fourth empty one in a row is taken for an
attack. -/
def ssl_decrypt_buf (transform : SslTransform) (counters : InCounters) (in_msgtype : UInt8)
    (version message : List UInt8) : Decrypted :=
  let (ret, in_msg, behind) := transform.decrypt counters.in_ctr in_msgtype version message
  if ret ≠ 0 then { ret, in_msg, behind, counters }
  else
    let nb_zero := if in_msg = [] then counters.nb_zero + 1 else 0
    if nb_zero > 3 then
      { ret := MBEDTLS_ERR_SSL_INVALID_MAC, in_msg, behind, counters := { counters with nb_zero } }
    else
      let (wrapping, in_ctr) := increment_ctr counters.in_ctr
      { ret := if wrapping then MBEDTLS_ERR_SSL_COUNTER_WRAPPING else 0
        in_msg, behind, counters := { in_ctr, nb_zero } }

def ssl_prepare_record_content (transform : SslTransform) (counters : InCounters) (in_msgtype : UInt8)
    (version message : List UInt8) : Decrypted :=
  let decrypted := transform.ssl_decrypt_buf counters in_msgtype version message
  if decrypted.ret ≠ 0 then decrypted
  else if decrypted.in_msg.length > MBEDTLS_SSL_MAX_CONTENT_LEN then
    { decrypted with ret := MBEDTLS_ERR_SSL_INVALID_RECORD }
  else decrypted

end SslTransform

namespace SslInput

def mbedtls_ssl_fetch_input (base : Stream σ) (ssl : SslInput) (base_state : σ) (nb_want fuel : Nat) :
    Exec (Int × SslInput × σ) :=
  if nb_want > MBEDTLS_SSL_BUFFER_LEN - in_hdr_offset then
    ok (MBEDTLS_ERR_SSL_BAD_INPUT_DATA, ssl, base_state)
  else do
    let (ret, fetching) ← loop (fetch_pass base nb_want) fuel { in_hdr := ssl.in_hdr, base_state }
    ok (ret, { ssl with in_hdr := fetching.in_hdr }, fetching.base_state)

/-- The types of records. -/
def known_type (in_msgtype : UInt8) : Bool :=
  in_msgtype = MBEDTLS_SSL_MSG_HANDSHAKE || in_msgtype = MBEDTLS_SSL_MSG_ALERT ||
    in_msgtype = MBEDTLS_SSL_MSG_CHANGE_CIPHER_SPEC || in_msgtype = MBEDTLS_SSL_MSG_APPLICATION_DATA

/-- `alert` is `mbedtls_ssl_send_alert_message`, whose answer is not looked at here. -/
def ssl_parse_record_header (transform : SslTransform) (alert : σ → UInt8 → UInt8 → Exec (Int × σ))
    (ssl : SslInput) (base_state : σ) : Exec (Int × SslInput × σ) :=
  match ssl.in_hdr with
  | in_msgtype :: major_ver :: minor_ver :: high :: low :: _ => do
    let ssl := { ssl with in_msgtype, in_msglen := be_nat [high, low] }
    if ¬ known_type in_msgtype then do
      let (_, base_state) ← alert base_state MBEDTLS_SSL_ALERT_LEVEL_FATAL MBEDTLS_SSL_ALERT_MSG_UNEXPECTED_MESSAGE
      ok (MBEDTLS_ERR_SSL_INVALID_RECORD, ssl, base_state)
    else if ¬ transform.accepts_header major_ver minor_ver ssl.in_msglen then
      ok (MBEDTLS_ERR_SSL_INVALID_RECORD, ssl, base_state)
    else ok (0, ssl, base_state)
  | _ => fail .invalid_access

/-- Step A of `mbedtls_ssl_read_record_layer` with no application data in flight: what the last
call left is consumed, up to the next handshake message of its record. -/
def consume (ssl : SslInput) : SslInput :=
  if ssl.in_hslen ≠ 0 then
    if ssl.in_hslen < ssl.in_msglen then
      { ssl with
        in_msglen := ssl.in_msglen - ssl.in_hslen, in_msg := ssl.in_msg.drop ssl.in_hslen, in_hslen := 0 }
    else { ssl with in_msglen := 0, in_msg := [], in_hslen := 0 }
  else { ssl with in_msglen := 0, in_msg := [] }

/-- The decryption of a record that is fetched, whose errors are answered at once. -/
def open_record (transform : SslTransform) (alert : σ → UInt8 → UInt8 → Exec (Int × σ)) (ssl : SslInput)
    (base_state : σ) : Exec (Int × SslInput × σ) := do
  let version := (ssl.in_hdr.drop 1).take 2
  let message := (ssl.in_hdr.drop mbedtls_ssl_hdr_len).take ssl.in_msglen
  let { ret, in_msg, behind, counters } :=
    transform.ssl_prepare_record_content ssl.counters ssl.in_msgtype version message
  let ssl := { ssl with in_hdr := [], in_msg, in_msglen := in_msg.length, behind, counters }
  if ret = MBEDTLS_ERR_SSL_INVALID_MAC then do
    let (_, base_state) ← alert base_state MBEDTLS_SSL_ALERT_LEVEL_FATAL MBEDTLS_SSL_ALERT_MSG_BAD_RECORD_MAC
    ok (ret, ssl, base_state)
  else ok (ret, ssl, base_state)

/-- The message of a record whose header is taken, and its decryption. -/
def fetch_message (transform : SslTransform) (alert : σ → UInt8 → UInt8 → Exec (Int × σ)) (base : Stream σ)
    (ssl : SslInput) (base_state : σ) (fuel : Nat) : Exec (Int × SslInput × σ) := do
  let (ret, ssl, base_state) ←
    ssl.mbedtls_ssl_fetch_input base base_state (mbedtls_ssl_hdr_len + ssl.in_msglen) fuel
  if ret ≠ 0 then ok (ret, ssl, base_state) else ssl.open_record transform alert base_state

/-- Step B of `mbedtls_ssl_read_record_layer`: a new record is fetched and decrypted. -/
def fetch_record (transform : SslTransform) (alert : σ → UInt8 → UInt8 → Exec (Int × σ)) (base : Stream σ)
    (ssl : SslInput) (base_state : σ) (fuel : Nat) : Exec (Int × SslInput × σ) := do
  let (ret, ssl, base_state) ← ssl.mbedtls_ssl_fetch_input base base_state mbedtls_ssl_hdr_len fuel
  if ret ≠ 0 then ok (ret, ssl, base_state)
  else do
    let (ret, ssl, base_state) ← ssl.ssl_parse_record_header transform alert base_state
    if ret ≠ 0 then ok (ret, ssl, base_state) else ssl.fetch_message transform alert base base_state fuel

def mbedtls_ssl_read_record_layer (transform : SslTransform) (alert : σ → UInt8 → UInt8 → Exec (Int × σ))
    (base : Stream σ) (ssl : SslInput) (base_state : σ) (fuel : Nat) : Exec (Int × SslInput × σ) :=
  if ssl.in_offt then ok (if ssl.in_hslen ≠ 0 then MBEDTLS_ERR_SSL_INTERNAL_ERROR else 0, ssl, base_state)
  else
    let ssl := ssl.consume
    -- what is left of the current record is there to be processed
    if ssl.in_msglen > 0 then ok (0, ssl, base_state) else ssl.fetch_record transform alert base base_state fuel

/-- A handshake message has to lie in one record. -/
def mbedtls_ssl_prepare_handshake_record (ssl : SslInput) : Int × SslInput :=
  if ssl.in_msglen < mbedtls_ssl_hs_hdr_len then (MBEDTLS_ERR_SSL_INVALID_RECORD, ssl)
  else
    let ssl := { ssl with in_hslen := mbedtls_ssl_hs_hdr_len + be_nat ((ssl.in_msg.drop 1).take 3) }
    if ssl.in_msglen < ssl.in_hslen then (MBEDTLS_ERR_SSL_FEATURE_UNAVAILABLE, ssl) else (0, ssl)

/-- The bytes of an alert, which are read also where the content is shorter. -/
def alert_message (in_msg : List UInt8) (behind : UInt8 × UInt8) : UInt8 × UInt8 :=
  match in_msg with
  | [] => behind
  | [level] => (level, behind.1)
  | level :: message :: _ => (level, message)

/-- What is made of an alert. -/
def alert_answer : UInt8 × UInt8 → Int
  | (level, message) =>
    if level = MBEDTLS_SSL_ALERT_LEVEL_FATAL then MBEDTLS_ERR_SSL_FATAL_ALERT_MESSAGE
    else if level = MBEDTLS_SSL_ALERT_LEVEL_WARNING ∧ message = MBEDTLS_SSL_ALERT_MSG_CLOSE_NOTIFY then
      MBEDTLS_ERR_SSL_PEER_CLOSE_NOTIFY
    else if level = MBEDTLS_SSL_ALERT_LEVEL_WARNING ∧ message = MBEDTLS_SSL_ALERT_MSG_NO_RENEGOTIATION then 0
    else MBEDTLS_ERR_SSL_NON_FATAL

def mbedtls_ssl_handle_message_type (ssl : SslInput) : Int × SslInput :=
  if ssl.in_msgtype = MBEDTLS_SSL_MSG_HANDSHAKE then ssl.mbedtls_ssl_prepare_handshake_record
  else if ssl.in_msgtype = MBEDTLS_SSL_MSG_ALERT then (alert_answer (alert_message ssl.in_msg ssl.behind), ssl)
  else (0, ssl)

/-- One pass through the loop of `mbedtls_ssl_read_record`. -/
def read_record_pass (transform : SslTransform) (alert : σ → UInt8 → UInt8 → Exec (Int × σ)) (base : Stream σ)
    (fuel : Nat) (reading : SslInput × σ) : Exec (Flow (SslInput × σ) (Int × SslInput × σ)) := do
  let (ret, ssl, base_state) ← reading.1.mbedtls_ssl_read_record_layer transform alert base reading.2 fuel
  if ret ≠ 0 then ok (.done (ret, ssl, base_state))
  else
    let (ret, ssl) := ssl.mbedtls_ssl_handle_message_type
    if ret = MBEDTLS_ERR_SSL_NON_FATAL then ok (.cont (ssl, base_state)) else ok (.done (ret, ssl, base_state))

def mbedtls_ssl_read_record (transform : SslTransform) (alert : σ → UInt8 → UInt8 → Exec (Int × σ))
    (base : Stream σ) (ssl : SslInput) (base_state : σ) (fuel : Nat) : Exec (Int × SslInput × σ) :=
  loop (read_record_pass transform alert base fuel) fuel (ssl, base_state)

/-- What `mbedtls_ssl_read` of a client does with a handshake message: a new handshake is
refused. -/
def refuse_handshake (transform : SslTransform) (alert : σ → UInt8 → UInt8 → Exec (Int × σ)) (ssl : SslInput)
    (base_state : σ) : Exec (Int × σ) :=
  if ssl.in_msg.head? ≠ some MBEDTLS_SSL_HS_HELLO_REQUEST ∨ ssl.in_hslen ≠ mbedtls_ssl_hs_hdr_len then
    ok (MBEDTLS_ERR_SSL_UNEXPECTED_MESSAGE, base_state)
  else if transform.minor_ver < 1 then ok (MBEDTLS_ERR_SSL_INTERNAL_ERROR, base_state)
  else do
    let (ret, base_state) ← alert base_state MBEDTLS_SSL_ALERT_LEVEL_WARNING MBEDTLS_SSL_ALERT_MSG_NO_RENEGOTIATION
    ok (if ret ≠ 0 then ret else MBEDTLS_ERR_SSL_WANT_READ, base_state)

/-- The end of `mbedtls_ssl_read`, with application data at hand. -/
def take_data (ssl : SslInput) (len : Nat) : Int × List UInt8 × SslInput :=
  let n := if len < ssl.in_msglen then len else ssl.in_msglen
  let in_msglen := ssl.in_msglen - n
  (n, ssl.in_msg.take n, { ssl with in_msg := ssl.in_msg.drop n, in_msglen, in_offt := in_msglen ≠ 0 })

/-- `mbedtls_ssl_read` with the record that it has read. -/
def read_content (transform : SslTransform) (alert : σ → UInt8 → UInt8 → Exec (Int × σ)) (ssl : SslInput)
    (base_state : σ) (len : Nat) : Exec (Int × List UInt8 × SslInput × σ) :=
  if ssl.in_msgtype = MBEDTLS_SSL_MSG_HANDSHAKE then do
    let (ret, base_state) ← ssl.refuse_handshake transform alert base_state
    ok (ret, [], ssl, base_state)
  else if ssl.in_msgtype = MBEDTLS_SSL_MSG_ALERT then ok (MBEDTLS_ERR_SSL_WANT_READ, [], ssl, base_state)
  else if ssl.in_msgtype ≠ MBEDTLS_SSL_MSG_APPLICATION_DATA then
    ok (MBEDTLS_ERR_SSL_UNEXPECTED_MESSAGE, [], ssl, base_state)
  else
    let (ret, data, ssl) := { ssl with in_offt := true }.take_data len
    ok (ret, data, ssl, base_state)

/-- The answer to a record that could not be read: the end of the connection is no error. -/
def read_error (ret : Int) : Int := if ret = MBEDTLS_ERR_SSL_CONN_EOF then 0 else ret

/-- `mbedtls_ssl_read` as it is with the handshake over and renegotiation disabled. An empty
record of application data is passed over once. -/
def mbedtls_ssl_read (transform : SslTransform) (alert : σ → UInt8 → UInt8 → Exec (Int × σ)) (base : Stream σ)
    (ssl : SslInput) (base_state : σ) (len fuel : Nat) : Exec (Int × List UInt8 × SslInput × σ) :=
  if ssl.in_offt then
    let (ret, data, ssl) := ssl.take_data len
    ok (ret, data, ssl, base_state)
  else do
    let (ret, ssl, base_state) ← ssl.mbedtls_ssl_read_record transform alert base base_state fuel
    if ret ≠ 0 then ok (read_error ret, [], ssl, base_state)
    else if ssl.in_msglen = 0 ∧ ssl.in_msgtype = MBEDTLS_SSL_MSG_APPLICATION_DATA then do
      let (ret, ssl, base_state) ← ssl.mbedtls_ssl_read_record transform alert base base_state fuel
      if ret ≠ 0 then ok (read_error ret, [], ssl, base_state)
      else ssl.read_content transform alert base_state len
    else ssl.read_content transform alert base_state len

end SslInput

namespace TlsStream

/-- `TlsStream::read` with `mbedtls_ssl_read`. -/
def read_data (transform : SslTransform) (alert : σ → UInt8 → UInt8 → Exec (Int × σ)) (base : Stream σ)
    (self : TlsStream) (ssl : SslInput) (base_state : σ) (size : UInt32) (fuel : Nat) :
    Exec ((RetVal UInt32 × List UInt8) × SslInput × σ) :=
  if self.m_is_opened_session ∧ self.m_contexts = .set_up true then do
    let (len, data, ssl, base_state) ← ssl.mbedtls_ssl_read transform alert base base_state size.toNat fuel
    let r ← self.read len
    ok ((r, data), ssl, base_state)
  else do
    let r ← self.read 0
    ok ((r, []), ssl, base_state)

/-- Successive reads of the given sizes. -/
def reads (transform : SslTransform) (alert : σ → UInt8 → UInt8 → Exec (Int × σ)) (base : Stream σ)
    (self : TlsStream) (fuel : Nat) :
    List UInt32 → SslInput → σ → Exec (List (RetVal UInt32 × List UInt8) × SslInput × σ)
  | [], ssl, base_state => ok ([], ssl, base_state)
  | size :: sizes, ssl, base_state => do
    let (answer, ssl, base_state) ← self.read_data transform alert base ssl base_state size fuel
    let (answers, ssl, base_state) ← self.reads transform alert base fuel sizes ssl base_state
    ok (answer :: answers, ssl, base_state)

end TlsStream

end kfw.net

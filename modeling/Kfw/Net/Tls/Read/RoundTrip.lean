import Kfw.Net.Tls.Read.Refines

open exec Result kfw.io

namespace kfw.net

/-- The cipher of the sending side, which encrypts a content under the counter of its record. -/
structure SslCipher where
  encrypt : List UInt8 → List UInt8 → Int × List UInt8
  encrypt_le : ∀ ctr content, (encrypt ctr content).1 ≤ 0

/-- A context that encrypts its next record under `out_ctr`. -/
def SslContext.keyed (cipher : SslCipher) (ssl : SslContext) : SslContext :=
  { ssl with
    ssl_encrypt_buf := cipher.encrypt ssl.out_ctr
    ssl_encrypt_buf_le := cipher.encrypt_le ssl.out_ctr }

/-- Successive writes of a session. -/
def TlsStream.writes {σ : Type} (cipher : SslCipher) (base : Stream σ) (self : TlsStream) (fuel : Nat) :
    List (List UInt8) → SslContext → σ → Exec (List (RetVal UInt32) × SslContext × σ)
  | [], ssl, base_state => ok ([], ssl, base_state)
  | data :: datas, ssl, base_state => do
    let (r, ssl, base_state) ← self.write_data base (ssl.keyed cipher) base_state data fuel
    let (rs, ssl, base_state) ← self.writes cipher base fuel datas ssl base_state
    ok (r :: rs, ssl, base_state)

/-- The two sides of a session fit: what the sender encrypts under a counter the receiver takes
and decrypts under it. -/
structure Keyed (cipher : SslCipher) (transform : SslTransform) (ssl : SslContext) : Prop where
  takes : ∀ ctr content, content ≠ [] → content.length ≤ MBEDTLS_SSL_MAX_CONTENT_LEN →
    (cipher.encrypt ctr content).1 = 0 →
      transform.accepts_header ssl.major_ver ssl.minor_ver (cipher.encrypt ctr content).2.length = true
  opens : ∀ ctr content, content ≠ [] → content.length ≤ MBEDTLS_SSL_MAX_CONTENT_LEN →
    (cipher.encrypt ctr content).1 = 0 → ∃ behind,
      transform.decrypt ctr MBEDTLS_SSL_MSG_APPLICATION_DATA [ssl.major_ver, ssl.minor_ver]
        (cipher.encrypt ctr content).2 = (0, content, behind)

/-- The records of successive pieces of data. -/
def records (cipher : SslCipher) (ssl : SslContext) : List UInt8 → List (List UInt8) → List UInt8
  | _, [] => []
  | ctr, piece :: pieces =>
    ssl.record (cipher.encrypt ctr piece).2 ++ records cipher ssl (increment_ctr ctr).2 pieces

/-- Pieces of data that can be sent one after the other from the given counter on. -/
def Sendable (cipher : SslCipher) : List UInt8 → List (List UInt8) → Prop
  | _, [] => True
  | ctr, piece :: pieces =>
    piece ≠ [] ∧ piece.length ≤ MBEDTLS_SSL_MAX_CONTENT_LEN ∧ (cipher.encrypt ctr piece).1 = 0 ∧
      (increment_ctr ctr).1 = false ∧ Sendable cipher (increment_ctr ctr).2 pieces

/-- The first `whole` records of the pieces lie in the first `count` bytes, and no other
record does. -/
structure WholeBefore (cipher : SslCipher) (ssl : SslContext) (ctr : List UInt8) (pieces : List (List UInt8))
    (count whole : Nat) : Prop where
  le : whole ≤ pieces.length
  within : (records cipher ssl ctr (pieces.take whole)).length ≤ count
  beyond : whole < pieces.length → count < (records cipher ssl ctr (pieces.take (whole + 1))).length

section Decode

variable {cipher : SslCipher} {transform : SslTransform} {ssl : SslContext} {ctr : List UInt8} {nb_zero : Nat}
  {piece : List UInt8} {pieces : List (List UInt8)}

theorem be_nat_length {n : Nat} (h : n < 2 ^ 16) : be_nat [(n >>> 8).toUInt8, n.toUInt8] = n := by
  have hhigh : (n >>> 8).toUInt8.toNat = n / 2 ^ 8 := by
    rw [Nat.shiftRight_eq_div_pow]
    exact Nat.mod_eq_of_lt (by omega)
  have hlow : n.toUInt8.toNat = n % 2 ^ 8 := rfl
  have hless : n % 2 ^ 8 < 2 ^ 8 := Nat.mod_lt _ (by decide)
  simp only [be_nat, List.foldl_cons, List.foldl_nil, Nat.zero_shiftLeft, Nat.zero_or, hhigh, hlow]
  rw [Nat.shiftLeft_eq, Nat.mul_comm, ← Nat.two_pow_add_eq_or_of_lt hless, Nat.div_add_mod]

theorem Keyed.length_lt (h : Keyed cipher transform ssl) (hpiece : piece ≠ [])
    (hlength : piece.length ≤ MBEDTLS_SSL_MAX_CONTENT_LEN) (hencrypts : (cipher.encrypt ctr piece).1 = 0) :
    (cipher.encrypt ctr piece).2.length + mbedtls_ssl_hdr_len < MBEDTLS_SSL_BUFFER_LEN := by
  have htakes := h.takes ctr piece hpiece hlength hencrypts
  simp only [SslTransform.accepts_header, Bool.and_eq_true, decide_eq_true_eq] at htakes
  have hle := htakes.1.1.2
  simp only [in_hdr_offset, mbedtls_ssl_hdr_len, MBEDTLS_SSL_BUFFER_LEN, MBEDTLS_SSL_MAX_CONTENT_LEN,
    MBEDTLS_SSL_COMPRESSION_ADD, MBEDTLS_SSL_MAC_ADD, MBEDTLS_SSL_PADDING_ADD] at hle ⊢
  omega

/-- What a record of application data decrypts to. -/
theorem Keyed.decrypts (h : Keyed cipher transform ssl) (hpiece : piece ≠ [])
    (hlength : piece.length ≤ MBEDTLS_SSL_MAX_CONTENT_LEN) (hencrypts : (cipher.encrypt ctr piece).1 = 0)
    (hwraps : (increment_ctr ctr).1 = false) : ∃ behind,
      transform.ssl_prepare_record_content ⟨ctr, nb_zero⟩ MBEDTLS_SSL_MSG_APPLICATION_DATA
          [ssl.major_ver, ssl.minor_ver] (cipher.encrypt ctr piece).2 =
        ⟨0, piece, behind, ⟨(increment_ctr ctr).2, 0⟩⟩ := by
  obtain ⟨behind, hopens⟩ := h.opens ctr piece hpiece hlength hencrypts
  refine ⟨behind, ?_⟩
  have hdecrypt : transform.ssl_decrypt_buf ⟨ctr, nb_zero⟩ MBEDTLS_SSL_MSG_APPLICATION_DATA
      [ssl.major_ver, ssl.minor_ver] (cipher.encrypt ctr piece).2 = ⟨0, piece, behind, ⟨(increment_ctr ctr).2, 0⟩⟩ := by
    simp [SslTransform.ssl_decrypt_buf, hopens, hpiece, hwraps]
  simp only [SslTransform.ssl_prepare_record_content, hdecrypt, ne_eq, not_true, if_false]
  rw [if_neg (by omega)]

theorem Keyed.valid (h : Keyed cipher transform ssl) (hpiece : piece ≠ [])
    (hlength : piece.length ≤ MBEDTLS_SSL_MAX_CONTENT_LEN) (hencrypts : (cipher.encrypt ctr piece).1 = 0) :
    transform.valid_header MBEDTLS_SSL_MSG_APPLICATION_DATA ssl.major_ver ssl.minor_ver
        ((cipher.encrypt ctr piece).2.length >>> 8).toUInt8 (cipher.encrypt ctr piece).2.length.toUInt8 = true ∧
      be_nat [((cipher.encrypt ctr piece).2.length >>> 8).toUInt8, (cipher.encrypt ctr piece).2.length.toUInt8] =
        (cipher.encrypt ctr piece).2.length := by
  have hlt := h.length_lt hpiece hlength hencrypts
  have hroom : MBEDTLS_SSL_BUFFER_LEN < 2 ^ 16 := by decide
  have hbe := be_nat_length (show (cipher.encrypt ctr piece).2.length < 2 ^ 16 by omega)
  refine ⟨?_, hbe⟩
  rw [SslTransform.valid_header, hbe, h.takes ctr piece hpiece hlength hencrypts]
  rfl

theorem records_take_length_le (ctr : List UInt8) (pieces : List (List UInt8)) (count : Nat) :
    (records cipher ssl ctr (pieces.take count)).length ≤ (records cipher ssl ctr pieces).length := by
  induction pieces generalizing ctr count with
  | nil => rw [List.take_nil]
  | cons piece pieces ih =>
    cases count with
    | zero => exact Nat.zero_le _
    | succ count =>
      have hrest := ih (increment_ctr ctr).2 count
      simp only [List.take_succ_cons, records, List.length_append]
      omega

theorem length_record (ssl : SslContext) (message : List UInt8) :
    (ssl.record message).length = message.length + mbedtls_ssl_hdr_len := by
  rw [SslContext.record, List.length_append, Nat.add_comm]
  rfl

/-- The first record is not whole. -/
theorem WholeBefore.none {count : Nat}
    (hcut : count < (cipher.encrypt ctr piece).2.length + mbedtls_ssl_hdr_len) :
    WholeBefore cipher ssl ctr (piece :: pieces) count 0 where
  le := Nat.zero_le _
  within := Nat.zero_le _
  beyond _ := by
    simp only [Nat.zero_add, List.take_succ_cons, List.take_zero, records, List.append_nil, length_record]
    exact hcut

/-- The first record is whole, and of the others those that lie in the rest of the bytes. -/
theorem WholeBefore.cons {count whole : Nat}
    (h : WholeBefore cipher ssl (increment_ctr ctr).2 pieces count whole) :
    WholeBefore cipher ssl ctr (piece :: pieces)
      ((cipher.encrypt ctr piece).2.length + mbedtls_ssl_hdr_len + count) (whole + 1) where
  le := Nat.succ_le_succ h.le
  within := by
    have hwithin := h.within
    simp only [List.take_succ_cons, records, List.length_append, length_record]
    omega
  beyond hless := by
    have hbeyond := h.beyond (Nat.lt_of_succ_lt_succ hless)
    simp only [List.take_succ_cons, records, List.length_append, length_record] at hbeyond ⊢
    omega

/-- If all bytes are there, all records are whole. -/
theorem WholeBefore.eq_length {count whole : Nat} (h : WholeBefore cipher ssl ctr pieces count whole)
    (hall : (records cipher ssl ctr pieces).length ≤ count) : whole = pieces.length := by
  refine Nat.le_antisymm h.le (Nat.not_lt.mp fun hless => ?_)
  have hbeyond := h.beyond hless
  have htake := @records_take_length_le cipher ssl ctr pieces (whole + 1)
  omega

/-- What of the records comes before a cut are whole records, and nothing is wrong with the
rest. -/
theorem decode_records_take (h : Keyed cipher transform ssl) (hpieces : Sendable cipher ctr pieces) (count : Nat) :
    ∃ whole, WholeBefore cipher ssl ctr pieces count whole ∧
      transform.decode ⟨ctr, nb_zero⟩ ((records cipher ssl ctr pieces).take count) =
        ((pieces.take whole).map .data, .cut) := by
  induction pieces generalizing ctr nb_zero count with
  | nil =>
    refine ⟨0, ⟨Nat.le_refl _, Nat.zero_le _, fun hless => absurd hless (Nat.lt_irrefl 0)⟩, ?_⟩
    rw [records, List.take_nil]
    exact decode_short _ (by decide)
  | cons piece pieces ih =>
    obtain ⟨hpiece, hlength, hencrypts, hwraps, hrest⟩ := hpieces
    obtain ⟨hvalid, hbe⟩ := h.valid hpiece hlength hencrypts
    obtain ⟨behind, hdecrypts⟩ :=
      @Keyed.decrypts cipher transform ssl ctr nb_zero piece h hpiece hlength hencrypts hwraps
    by_cases hcut : count < (cipher.encrypt ctr piece).2.length + mbedtls_ssl_hdr_len
    · refine ⟨0, .none hcut, ?_⟩
      simp only [records, SslContext.record, List.cons_append, List.nil_append]
      generalize (cipher.encrypt ctr piece).2 = message at hvalid hbe hcut ⊢
      by_cases hheader : count < mbedtls_ssl_hdr_len
      · refine decode_short _ ?_
        rw [List.length_take]
        omega
      · obtain ⟨count, rfl⟩ : ∃ more, count = more + 5 :=
          ⟨count - 5, by simp only [mbedtls_ssl_hdr_len] at hheader; omega⟩
        simp only [List.take_succ_cons]
        refine decode_cut hvalid ?_
        simp only [mbedtls_ssl_hdr_len] at hcut
        rw [List.length_take, hbe]
        omega
    · obtain ⟨count, rfl⟩ : ∃ more, count = (cipher.encrypt ctr piece).2.length + mbedtls_ssl_hdr_len + more :=
        ⟨count - _, (Nat.add_sub_cancel' (Nat.not_lt.mp hcut)).symm⟩
      obtain ⟨whole, hwhole, hdecode⟩ := @ih _ 0 hrest count
      refine ⟨whole + 1, hwhole.cons, ?_⟩
      rw [records, ← length_record ssl, List.take_length_add_append]
      simp only [SslContext.record, List.cons_append, List.nil_append]
      generalize (cipher.encrypt ctr piece).2 = message at hvalid hbe hdecrypts ⊢
      rw [decode_record hvalid (by rw [hbe, List.length_append]; omega) rfl, hbe, List.take_left, List.drop_left,
        hdecrypts]
      simp only [hdecode]
      rfl

end Decode

/-- A reader that has given bytes ahead, and then comes to the end of the connection. -/
def TlsReader.Holds (reader : TlsReader) (bytes : List UInt8) : Prop :=
  ∃ contents : List (List UInt8), reader.items = contents.map .data ∧ reader.ending = .cut ∧ [] ∉ contents ∧
    bytes = reader.unread ++ contents.flatten

/-- Each read gives the next bytes, some if there are any, and no read fails. -/
theorem TlsReader.Holds.read {reader : TlsReader} {bytes : List UInt8} (h : reader.Holds bytes) {size : UInt32}
    (hsize : 0 < size.toNat) :
    ∃ data rest, (reader.read size).1 = (⟨kOk, data.length.toUInt32⟩, data) ∧ bytes = data ++ rest ∧
      (bytes ≠ [] → data ≠ []) ∧ (reader.read size).2.Holds rest := by
  obtain ⟨unread, items, ending⟩ := reader
  obtain ⟨contents, rfl, rfl, hcontents, rfl⟩ := h
  have hgive : ∀ content : List UInt8, content ≠ [] → content.take size.toNat ≠ [] := by
    intro content hcontent hnone
    rw [List.take_eq_nil_iff] at hnone
    rcases hnone with hzero | hnone
    · omega
    · exact hcontent hnone
  by_cases hunread : unread = []
  · subst hunread
    cases contents with
    | nil => exact ⟨[], [], rfl, rfl, fun hne => absurd rfl hne, [], rfl, rfl, by simp, rfl⟩
    | cons content contents =>
      rw [List.mem_cons, not_or] at hcontents
      have hother : ∀ left, next_item ((content :: contents).map .data) ≠ some (.data [], left) := by
        intro left hleft
        cases hleft
        exact hcontents.1 rfl
      rw [TlsReader.read_other hother]
      refine ⟨content.take size.toNat, content.drop size.toNat ++ contents.flatten, rfl, ?_, fun _ => hgive content
        (Ne.symm hcontents.1), contents, rfl, rfl, hcontents.2, rfl⟩
      rw [List.nil_append, List.flatten_cons, ← List.append_assoc, List.take_append_drop]
  · refine ⟨unread.take size.toNat, unread.drop size.toNat ++ contents.flatten, ?_, ?_, fun _ => hgive unread hunread,
      contents, ?_, ?_, hcontents, ?_⟩
    · simp [TlsReader.read, hunread, TlsReader.give]
    · rw [← List.append_assoc, List.take_append_drop]
    · simp [TlsReader.read, hunread, TlsReader.give]
    · simp [TlsReader.read, hunread, TlsReader.give]
    · simp [TlsReader.read, hunread, TlsReader.give]

/-- What reads of at least one byte each give of the bytes a reader holds: none fails, and as
many reads as there are bytes give them all. -/
structure GivenInOrder (bytes : List UInt8) (answers : List (RetVal UInt32 × List UInt8)) : Prop where
  succeed : ∀ answer ∈ answers, answer.1 = ⟨kOk, answer.2.length.toUInt32⟩
  in_order : (answers.map Prod.snd).flatten <+: bytes
  complete : bytes.length ≤ answers.length → (answers.map Prod.snd).flatten = bytes

theorem TlsReader.length_reads (reader : TlsReader) (sizes : List UInt32) :
    (reader.reads sizes).length = sizes.length := by
  induction sizes generalizing reader with
  | nil => rfl
  | cons size sizes ih => rw [TlsReader.reads, List.length_cons, ih, List.length_cons]

theorem TlsReader.Holds.reads {sizes : List UInt32} (hsizes : ∀ size ∈ sizes, 0 < size.toNat) {reader : TlsReader}
    {bytes : List UInt8} (h : reader.Holds bytes) : GivenInOrder bytes (reader.reads sizes) := by
  induction sizes generalizing reader bytes with
  | nil =>
    refine ⟨by simp [TlsReader.reads], by simp [TlsReader.reads], fun hle => ?_⟩
    rw [TlsReader.reads, List.length_nil, Nat.le_zero, List.length_eq_zero_iff] at hle
    simp [TlsReader.reads, hle]
  | cons size sizes ih =>
    obtain ⟨data, rest, hread, rfl, hsome, hrest⟩ := h.read (hsizes size List.mem_cons_self)
    obtain ⟨hsucceed, hbegin, hcomplete⟩ := ih (fun other hother => hsizes other (List.mem_cons_of_mem _ hother)) hrest
    rw [TlsReader.reads, hread]
    refine ⟨?_, ?_, fun hle => ?_⟩
    · intro answer hanswer
      rcases List.mem_cons.mp hanswer with rfl | hanswer
      · rfl
      · exact hsucceed answer hanswer
    · rw [List.map_cons, List.flatten_cons]
      exact (List.prefix_append_right_inj data).mpr hbegin
    · rw [List.map_cons, List.flatten_cons, hcomplete ?_]
      by_cases hempty : data ++ rest = []
      · rw [(List.append_eq_nil_iff.mp hempty).2]
        exact Nat.zero_le _
      · have hpositive : 0 < data.length := List.length_pos_iff.mpr (hsome hempty)
        rw [List.length_append, List.length_cons] at hle
        omega

section Write

variable {σ : Type} {base : Stream σ} {accepted : σ → List UInt8} {fuel : Nat} {state : σ}

/-- No write of the connection fails. -/
def NeverFails (base : Stream σ) : Prop :=
  ∀ state data r next, base.write state data = ok (r, next) → is_failed r.ret = false

/-- The loop of `mbedtls_ssl_flush_output` sends a record whole, in no more passes than it has
bytes. -/
theorem flush_whole (hbase : base.SendsPartly accepted) (hsends : NeverFails base) {record : List UInt8}
    (hfuel : record.length < fuel) :
    ∃ next, loop (flush_pass base record) fuel ⟨record.length, state⟩ = ok (none, ⟨0, next⟩) ∧
      accepted next = accepted state ++ record := by
  obtain ⟨⟨ret, flushing⟩, hloop, rfl, hleft, haccepted⟩ := loop_total (flush_pass base record)
    (fun flushing => ∃ count current, Sent base record state count current ∧
      flushing = ⟨record.length - count, current⟩)
    Flushing.out_left
    (fun result => result.1 = none ∧ result.2.out_left = 0 ∧
      accepted result.2.base_state = accepted state ++ record)
    (by
      rintro flushing ⟨count, current, hsent, rfl⟩
      obtain ⟨hle, htaken⟩ := hsent.taken hbase
      by_cases hleft : count < record.length
      · have hdata : record.drop count ≠ [] := by simpa using hleft
        obtain ⟨r, next, hwrite, hanswer⟩ := hbase current _ hdata
        have hr := hsends current _ r next hwrite
        rcases hanswer with ⟨-, hval, -⟩ | ⟨hfailed, -⟩
        · refine .inr ⟨_, flush_pass_send hleft hwrite hval, ⟨_, next, hsent.send hleft hwrite hr, rfl⟩, ?_⟩
          simp only
          omega
        · exact absurd hfailed (by simp [hr])
      · have hall : count = record.length := by omega
        subst hall
        refine .inl ⟨(none, ⟨0, current⟩), by simp [flush_pass], rfl, rfl, ?_⟩
        simpa using htaken)
    ⟨0, state, .start, rfl⟩ hfuel
  obtain ⟨out_left, next⟩ := flushing
  obtain rfl : out_left = 0 := hleft
  exact ⟨next, hloop, haccepted⟩

theorem write_len_pos (ssl : SslContext) {data : List UInt8} (hdata : data ≠ []) : 0 < ssl.write_len data := by
  have hcode : ∀ mfl_code, 0 < mfl_code_to_length mfl_code := by
    intro mfl_code
    cases mfl_code <;> decide
  have hmax : 0 < ssl.mbedtls_ssl_get_max_frag_len := by
    simp only [SslContext.mbedtls_ssl_get_max_frag_len]
    split
    · exact hcode _
    · split <;> exact hcode _
  have hpositive : 0 < data.length := List.length_pos_iff.mpr hdata
  simp only [SslContext.write_len]
  split <;> omega

variable {self : TlsStream} {ssl : SslContext} {data : List UInt8}

/-- A write whose bytes can be encrypted sends its record whole. -/
theorem write_data_sends (hopened : self.m_is_opened_session = true) (hset_up : self.m_contexts = .set_up true)
    (hbase : base.SendsPartly accepted) (hsends : NeverFails base) (hempty : ssl.out_left = 0)
    (hencrypts : (TlsStream.encrypted ssl data).1 = 0)
    (hfuel : (ssl.record (TlsStream.encrypted ssl data).2).length < fuel) :
    ∃ next, self.write_data base ssl state data fuel =
        ok (if (increment_ctr ssl.out_ctr).1 then ⟨kEUnknown, 0⟩ else ⟨kOk, (ssl.write_len data).toUInt32⟩,
          { ssl with
            out_hdr := ssl.record (TlsStream.encrypted ssl data).2
            out_left := 0
            out_ctr := (increment_ctr ssl.out_ctr).2 }, next) ∧
      accepted next = accepted state ++ ssl.record (TlsStream.encrypted ssl data).2 := by
  obtain ⟨next, hflush, haccepted⟩ := @flush_whole σ base accepted fuel state hbase hsends _ hfuel
  refine ⟨next, ?_, haccepted⟩
  rw [TlsStream.write_data_opened hopened hset_up, TlsStream.ssl_write_real_eq hempty hencrypts, hflush]
  cases (increment_ctr ssl.out_ctr).1 with
  | true => rfl
  | false =>
    have hlen : ((ssl.write_len data : Nat) : Int) ≥ 0 := Int.natCast_nonneg _
    simp [hlen]

/-- A write whose bytes cannot be encrypted fails and sends nothing. -/
theorem write_data_refused (hopened : self.m_is_opened_session = true) (hset_up : self.m_contexts = .set_up true)
    (hempty : ssl.out_left = 0) (hrefused : (TlsStream.encrypted ssl data).1 ≠ 0) :
    self.write_data base ssl state data fuel = ok (⟨kEUnknown, 0⟩, ssl, state) := by
  have hle := ssl.ssl_encrypt_buf_le (data.take (ssl.write_len data))
  have hnegative : ¬ (TlsStream.encrypted ssl data).1 ≥ 0 := by
    simp only [TlsStream.encrypted] at hrefused ⊢
    omega
  rw [TlsStream.write_data_opened hopened hset_up, TlsStream.ssl_write_real_refused hempty hrefused, bind_ok]
  simp [hnegative]

/-- The bytes that the writes took. -/
def acknowledged (datas : List (List UInt8)) (rs : List (RetVal UInt32)) : List (List UInt8) :=
  List.zipWith (fun data r => data.take r.val.toNat) datas rs

variable {cipher : SslCipher} {transform : SslTransform}

theorem records_congr {other : SslContext} (hmajor : other.major_ver = ssl.major_ver)
    (hminor : other.minor_ver = ssl.minor_ver) (ctr : List UInt8) (pieces : List (List UInt8)) :
    records cipher other ctr pieces = records cipher ssl ctr pieces := by
  induction pieces generalizing ctr with
  | nil => rfl
  | cons piece pieces ih => rw [records, records, ih, SslContext.record, SslContext.record, hmajor, hminor]

/-- The writes of a session all come back; if they succeed, the connection has taken the records
of their bytes. -/
theorem writes_spec (hopened : self.m_is_opened_session = true) (hset_up : self.m_contexts = .set_up true)
    (hbase : base.SendsPartly accepted) (hsends : NeverFails base) (hkeyed : Keyed cipher transform ssl)
    (hempty : ssl.out_left = 0) (hfuel : MBEDTLS_SSL_BUFFER_LEN ≤ fuel) {datas : List (List UInt8)}
    (hdatas : [] ∉ datas) :
    ∃ rs ssl' next, self.writes cipher base fuel datas ssl state = ok (rs, ssl', next) ∧
      ((∀ r ∈ rs, r.ret = kOk) → Sendable cipher ssl.out_ctr (acknowledged datas rs) ∧
        accepted next = accepted state ++ records cipher ssl ssl.out_ctr (acknowledged datas rs)) := by
  induction datas generalizing ssl state with
  | nil => exact ⟨[], ssl, state, rfl, fun _ => ⟨trivial, by simp [acknowledged, records]⟩⟩
  | cons data datas ih =>
    rw [List.mem_cons, not_or] at hdatas
    have hunknown : kEUnknown ≠ kOk := by decide
    by_cases hencrypts : (TlsStream.encrypted (ssl.keyed cipher) data).1 = 0
    · have hlen := TlsStream.write_len_le (ssl.keyed cipher) data
      have hpiece : data.take ((ssl.keyed cipher).write_len data) ≠ [] := by
        have hpositive := write_len_pos (ssl.keyed cipher) (Ne.symm hdatas.1)
        rw [ne_eq, List.take_eq_nil_iff]
        rintro (hzero | hnone)
        · omega
        · exact hdatas.1 hnone.symm
      have hlength : (data.take ((ssl.keyed cipher).write_len data)).length ≤ MBEDTLS_SSL_MAX_CONTENT_LEN := by
        rw [List.length_take]
        omega
      have hroom := hkeyed.length_lt hpiece hlength hencrypts
      obtain ⟨next, hwrite, haccepted⟩ := @write_data_sends σ base accepted fuel state self (ssl.keyed cipher) data
        hopened hset_up hbase hsends hempty hencrypts (Nat.lt_of_lt_of_le hroom hfuel)
      obtain ⟨rs, ssl', next', hwrites, hspec⟩ := @ih next { ssl.keyed cipher with
          out_hdr := (ssl.keyed cipher).record (TlsStream.encrypted (ssl.keyed cipher) data).2
          out_left := 0
          out_ctr := (increment_ctr ssl.out_ctr).2 } ⟨hkeyed.takes, hkeyed.opens⟩ rfl hdatas.2
      refine ⟨_, ssl', next', bind_eq_ok_iff.mpr ⟨_, hwrite, bind_eq_ok_iff.mpr ⟨_, hwrites, rfl⟩⟩, fun hall => ?_⟩
      obtain ⟨hsendable, htaken⟩ := hspec fun r hr => hall r (List.mem_cons_of_mem _ hr)
      have hwraps : (increment_ctr ssl.out_ctr).1 = false := by
        have hfirst := hall _ List.mem_cons_self
        cases hwraps : (increment_ctr ssl.out_ctr).1 with
        | true =>
          rw [show (increment_ctr (ssl.keyed cipher).out_ctr).1 = true from hwraps] at hfirst
          exact absurd hfirst hunknown
        | false => rfl
      have hval : ((ssl.keyed cipher).write_len data).toUInt32.toNat = (ssl.keyed cipher).write_len data :=
        Nat.mod_eq_of_lt (Nat.lt_of_le_of_lt hlen (by decide))
      rw [show (increment_ctr (ssl.keyed cipher).out_ctr).1 = false from hwraps, if_neg (by decide)]
      simp only [acknowledged, List.zipWith_cons_cons, hval]
      refine ⟨⟨hpiece, hlength, hencrypts, hwraps, hsendable⟩, ?_⟩
      rw [htaken, haccepted, List.append_assoc, records]
      exact congrArg (fun rest => accepted state ++ ((ssl.keyed cipher).record _ ++ rest))
        (records_congr (by rfl) (by rfl) _ _)
    · obtain ⟨rs, ssl', next, hwrites, -⟩ := @ih state (ssl.keyed cipher) ⟨hkeyed.takes, hkeyed.opens⟩ hempty hdatas.2
      refine ⟨⟨kEUnknown, 0⟩ :: rs, ssl', next, bind_eq_ok_iff.mpr
        ⟨_, write_data_refused hopened hset_up hempty hencrypts, bind_eq_ok_iff.mpr ⟨_, hwrites, rfl⟩⟩, fun hall => ?_⟩
      exact absurd (hall _ List.mem_cons_self) hunknown

end Write

section RoundTrip

variable {σ τ : Type} {base : Stream σ} {accepted : σ → List UInt8} {fuel : Nat} {state : σ} {sender : TlsStream}
  {ssl : SslContext} {cipher : SslCipher} {transform : SslTransform} {conn : Stream τ}
  {alert : τ → UInt8 → UInt8 → Exec (Int × τ)} {pending : τ → List UInt8 → Prop} {receiver : TlsStream}
  {input : SslInput} {there : τ} {enough : Nat} {sizes : List UInt32} {pieces : List (List UInt8)}

theorem Sendable.nil_notMem {ctr : List UInt8} (h : Sendable cipher ctr pieces) : [] ∉ pieces := by
  induction pieces generalizing ctr with
  | nil => simp
  | cons piece pieces ih =>
    rw [List.mem_cons, not_or]
    exact ⟨Ne.symm h.1, ih h.2.2.2.2⟩

theorem Sendable.take {ctr : List UInt8} (h : Sendable cipher ctr pieces) (count : Nat) :
    Sendable cipher ctr (pieces.take count) := by
  induction pieces generalizing ctr count with
  | nil => simpa using h
  | cons piece pieces ih =>
    cases count with
    | zero => trivial
    | succ count => exact ⟨h.1, h.2.1, h.2.2.1, h.2.2.2.1, ih h.2.2.2.2 count⟩

theorem decode_records (hkeyed : Keyed cipher transform ssl) {ctr : List UInt8} {nb_zero : Nat}
    (hpieces : Sendable cipher ctr pieces) :
    transform.decode ⟨ctr, nb_zero⟩ (records cipher ssl ctr pieces) = (pieces.map .data, .cut) := by
  obtain ⟨whole, hwhole, hdecode⟩ := @decode_records_take cipher transform ssl ctr nb_zero pieces hkeyed hpieces
    (records cipher ssl ctr pieces).length
  rwa [List.take_length, hwhole.eq_length (Nat.le_refl _), List.take_length] at hdecode

/-- A reader of the bytes of pieces that can be sent. -/
theorem holds_of_decode {ctr : List UInt8} {nb_zero : Nat} (hpieces : Sendable cipher ctr pieces) {bytes : List UInt8}
    (hdecode : transform.decode ⟨ctr, nb_zero⟩ bytes = (pieces.map .data, .cut)) :
    (TlsReader.start transform ⟨ctr, nb_zero⟩ bytes).Holds pieces.flatten :=
  ⟨pieces, by rw [TlsReader.start, hdecode], by rw [TlsReader.start, hdecode], hpieces.nil_notMem, rfl⟩

/-- Everything that successful writes have taken is read on the other side of the connection,
once and in order, however the bytes are cut up on the way and whatever sizes are read. -/
theorem TlsStream.writes_are_read (hsender : sender.m_is_opened_session = true)
    (hsender_up : sender.m_contexts = .set_up true) (hbase : base.SendsPartly accepted) (hsends : NeverFails base)
    (hempty : ssl.out_left = 0) (hfuel : MBEDTLS_SSL_BUFFER_LEN ≤ fuel) {datas : List (List UInt8)}
    (hdatas : [] ∉ datas) (hkeyed : Keyed cipher transform ssl) (hreceiver : receiver.m_is_opened_session = true)
    (hreceiver_up : receiver.m_contexts = .set_up true) (hpeer : Peer alert conn pending)
    (hinput : input.Established) (hcounters : input.counters.in_ctr = ssl.out_ctr) :
    ∃ rs ssl' next, sender.writes cipher base fuel datas ssl state = ok (rs, ssl', next) ∧
      ((∀ r ∈ rs, r.ret = kOk) → ∃ wire, accepted next = accepted state ++ wire ∧
        ∀ there enough sizes, pending there wire → wire.length + 2 ≤ enough → (∀ size ∈ sizes, 0 < size.toNat) →
          ∃ answers input' there', receiver.reads transform alert conn enough sizes input there =
              ok (answers, input', there') ∧
            answers.length = sizes.length ∧ GivenInOrder (acknowledged datas rs).flatten answers) := by
  obtain ⟨rs, ssl', next, hwrites, hspec⟩ := @writes_spec σ base accepted fuel state sender ssl cipher transform hsender
    hsender_up hbase hsends hkeyed hempty hfuel datas hdatas
  refine ⟨rs, ssl', next, hwrites, fun hall => ?_⟩
  obtain ⟨hsendable, haccepted⟩ := hspec hall
  refine ⟨_, haccepted, fun there enough sizes hpending henough hsizes => ?_⟩
  obtain ⟨input', there', hreads⟩ :=
    reads_refine hreceiver hreceiver_up hpeer (hinput.represents hpending) henough sizes
  have hholds := holds_of_decode hsendable
    (@decode_records ssl cipher transform _ hkeyed ssl.out_ctr input.counters.nb_zero hsendable)
  rw [show (⟨ssl.out_ctr, input.counters.nb_zero⟩ : InCounters) = input.counters by rw [← hcounters]] at hholds
  exact ⟨_, input', there', hreads, TlsReader.length_reads _ _, hholds.reads hsizes⟩

/-- No encryption. -/
def SslCipher.plain : SslCipher where
  encrypt _ content := (0, content)
  encrypt_le _ _ := Int.le_refl 0

theorem keyed_plain : Keyed .plain .plain TlsStream.plain where
  takes := by
    intro _ content _ hlength _
    have hroom : MBEDTLS_SSL_MAX_CONTENT_LEN + (in_hdr_offset + mbedtls_ssl_hdr_len) ≤ MBEDTLS_SSL_BUFFER_LEN := by
      decide
    have hfits : content.length ≤ MBEDTLS_SSL_BUFFER_LEN - (in_hdr_offset + mbedtls_ssl_hdr_len) := by omega
    have hpadded : content.length ≤ MBEDTLS_SSL_MAX_CONTENT_LEN + 256 :=
      Nat.le_trans hlength (Nat.le_add_right _ _)
    simp [SslTransform.accepts_header, SslTransform.plain, SslCipher.plain, TlsStream.plain, hfits, hpadded]
  opens _ content _ _ _ := ⟨(0, 0), rfl⟩

theorem trickle_neverFails : NeverFails (TlsStream.trickle fun _ => false) := by
  intro sent data r next hwrite
  simp only [TlsStream.trickle, Bool.false_eq_true, if_false, ok.injEq, Prod.mk.injEq] at hwrite
  rw [← hwrite.1]
  rfl

/-- Two writes, of three bytes in all. -/
theorem writes_are_read_three :
    ∃ rs ssl next, TlsStream.session.writes .plain (TlsStream.trickle fun _ => false) MBEDTLS_SSL_BUFFER_LEN
        [[72, 105], [33]] TlsStream.plain [] = ok (rs, ssl, next) ∧
      ((∀ r ∈ rs, r.ret = kOk) → ∃ wire, id next = id [] ++ wire ∧
        ∀ there enough sizes, Socket.Open Wire.Pending there wire → wire.length + 2 ≤ enough →
          (∀ size ∈ sizes, 0 < size.toNat) →
          ∃ answers input there', TlsStream.session.reads .plain no_alert (SocketStream Wire.stream) enough sizes .fresh
              there = ok (answers, input, there') ∧
            answers.length = sizes.length ∧ GivenInOrder (acknowledged [[72, 105], [33]] rs).flatten answers) :=
  TlsStream.writes_are_read rfl rfl (TlsStream.trickle_sendsPartly _) trickle_neverFails rfl (Nat.le_refl _) (by decide)
    keyed_plain rfl rfl (peer_no_alert Wire.stream_cutOff) ⟨rfl, rfl, .inl rfl⟩ rfl

/-- If the connection is cut off anywhere in the records, no read says so: the answers are those
of a session that ends after the last record that has come whole, all bytes of which are
given. -/
theorem TlsStream.cut_reads_as_end (hopened : receiver.m_is_opened_session = true)
    (hset_up : receiver.m_contexts = .set_up true) (hpeer : Peer alert conn pending) (hinput : input.Established)
    (hkeyed : Keyed cipher transform ssl) (hpieces : Sendable cipher input.counters.in_ctr pieces) (count : Nat) :
    ∃ whole, WholeBefore cipher ssl input.counters.in_ctr pieces count whole ∧ ∀ cut ended enough sizes,
      pending cut ((records cipher ssl input.counters.in_ctr pieces).take count) →
      pending ended (records cipher ssl input.counters.in_ctr (pieces.take whole)) →
      (records cipher ssl input.counters.in_ctr pieces).length + 2 ≤ enough →
      (∀ size ∈ sizes, 0 < size.toNat) →
      ∃ answers, answers.length = sizes.length ∧ GivenInOrder (pieces.take whole).flatten answers ∧
        (∃ input' next, receiver.reads transform alert conn enough sizes input cut = ok (answers, input', next)) ∧
        ∃ input' next, receiver.reads transform alert conn enough sizes input ended = ok (answers, input', next) := by
  obtain ⟨whole, hwhole, hdecode⟩ := @decode_records_take cipher transform ssl input.counters.in_ctr
    input.counters.nb_zero pieces hkeyed hpieces count
  refine ⟨whole, hwhole, fun cut ended enough sizes hcut hended henough hsizes => ?_⟩
  have hless := @records_take_length_le cipher ssl input.counters.in_ctr pieces whole
  obtain ⟨input', next, hcut⟩ := @reads_refine τ transform alert conn pending enough input cut _ receiver hopened
    hset_up hpeer _ (hinput.represents hcut) (by rw [List.length_take]; omega) sizes
  obtain ⟨input'', next', hended⟩ := @reads_refine τ transform alert conn pending enough input ended _ receiver hopened
    hset_up hpeer _ (hinput.represents hended) (by omega) sizes
  -- both connections have the same records for their reader
  have hsame :
      TlsReader.start transform input.counters (records cipher ssl input.counters.in_ctr (pieces.take whole)) =
        TlsReader.start transform input.counters ((records cipher ssl input.counters.in_ctr pieces).take count) := by
    rw [TlsReader.start, TlsReader.start, hdecode,
      @decode_records ssl cipher transform _ hkeyed _ input.counters.nb_zero (hpieces.take whole)]
  rw [hsame] at hended
  exact ⟨_, TlsReader.length_reads _ _, (holds_of_decode (hpieces.take whole) hdecode).reads hsizes,
    ⟨input', next, hcut⟩, input'', next', hended⟩

theorem sendable_two : Sendable .plain SslInput.fresh.counters.in_ctr [[72, 105], [33]] :=
  ⟨by decide, by decide, rfl, rfl, by decide, by decide, rfl, rfl, trivial⟩

/-- Two records, cut off in the second: the bytes of the first are read. -/
theorem cut_reads_as_end_nine :
    ∃ answers, GivenInOrder [72, 105] answers ∧
      (∃ input next, TlsStream.session.reads .plain no_alert (SocketStream Wire.stream) 15 [1, 4, 4] .fresh
        { m_context := some { segments := [[23, 3, 3], [0, 2, 72, 105, 23, 3]] } } = ok (answers, input, next)) ∧
      ∃ input next, TlsStream.session.reads .plain no_alert (SocketStream Wire.stream) 15 [1, 4, 4] .fresh
        { m_context := some { segments := [[23, 3, 3, 0, 2, 72, 105]] } } = ok (answers, input, next) := by
  obtain ⟨whole, hwhole, hreads⟩ := @TlsStream.cut_reads_as_end (Socket Wire) TlsStream.plain .plain .plain
    (SocketStream Wire.stream) no_alert (Socket.Open Wire.Pending) TlsStream.session .fresh _ rfl rfl
    (peer_no_alert Wire.stream_cutOff) ⟨rfl, rfl, .inl rfl⟩ keyed_plain sendable_two 9
  have hone : whole = 1 := by
    have hle := hwhole.le
    have hwithin := hwhole.within
    have hbeyond := hwhole.beyond
    match whole, hle with
    | 0, _ => exact absurd (hbeyond (by decide)) (by decide)
    | 1, _ => rfl
    | 2, _ => exact absurd hwithin (by decide)
  subst hone
  obtain ⟨answers, -, hgiven, hcut, hended⟩ := hreads
    { m_context := some { segments := [[23, 3, 3], [0, 2, 72, 105, 23, 3]] } }
    { m_context := some { segments := [[23, 3, 3, 0, 2, 72, 105]] } } 15 [1, 4, 4]
    ⟨_, rfl, by decide⟩ ⟨_, rfl, by decide⟩ (by decide) (by simp)
  exact ⟨answers, hgiven, hcut, hended⟩

end RoundTrip

end kfw.net

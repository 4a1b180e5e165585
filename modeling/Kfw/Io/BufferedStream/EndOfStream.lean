import Kfw.Io.BufferedStream.Bounds

open exec Result

namespace kfw.io

variable {σ : Type}

/-- From this state on every read answers `kOk` and no bytes. -/
def Stream.Ended (stream : Stream σ) (state : σ) : Prop :=
  ∃ ended : σ → Prop, ended state ∧
    ∀ state, ended state → ∀ size, ∃ next, stream.read state size = ok (⟨kOk, 0⟩, [], next) ∧ ended next

/-- After finitely many reads that ask for bytes, whatever they answer, the stream has
ended. -/
inductive Stream.Ending (stream : Stream σ) : σ → Prop where
  | ended {state : σ} (hended : stream.Ended state) : Ending stream state
  | read {state : σ}
      (hnext : ∀ size r data next, 0 < size.toNat → stream.read state size = ok (r, data, next) →
        Ending stream next) :
      Ending stream state

namespace BufferedStream

/-- All that the base stream gave when refills of `buffer_size` bytes left it in a state,
and why there were no more: the missing bytes are there, it has ended, or the last
refill failed. -/
inductive Given (base : Stream σ) (buffer_size : UInt32) (start : σ) (missing : Nat) : List UInt8 → σ → Prop where
  | enough {given : List UInt8} {state : σ} (hgiven : Refilled base buffer_size start given state)
      (hmissing : missing ≤ given.length) : Given base buffer_size start missing given state
  | ended {given : List UInt8} {state : σ} (hgiven : Refilled base buffer_size start given state)
      (hended : base.Ended state) : Given base buffer_size start missing given state
  | failed {given data : List UInt8} {state next : σ} {r : RetVal UInt32}
      (hgiven : Refilled base buffer_size start given state)
      (hread : base.read state buffer_size = ok (r, data, next)) (hr : is_failed r.ret = true) :
      Given base buffer_size start missing given next

/-- `read` returns with the unread bytes and all those that the base stream gave until
then, in this order and as far as they were asked for, and counts them. -/
def Completes (base : Stream σ) (bs : BufferedStream) (unread : List UInt8) (base_state : σ) (size : UInt32) :
    Prop :=
  ∃ fuel r out self state, bs.read base base_state size fuel = ok (r, out, self, state) ∧
    r.val.toNat = out.length ∧
    ((∃ given, Given base bs.m_read_buffer_size base_state (size.toNat - unread.length) given state ∧
        out = (unread ++ given).take size.toNat) ∨
      ∃ answer data, base.read base_state (size - unread.length.toUInt32) = ok (answer, data, state) ∧
        out = unread ++ data)

/-- The requests that `read` can serve: from the buffered bytes; directly, with no byte
buffered; or by refills that fit and that do not come to the end of the base stream
while bytes are missing. -/
def Servable (base : Stream σ) (bs : BufferedStream) (unread : List UInt8) (base_state : σ) (size : UInt32) :
    Prop :=
  size.toNat ≤ unread.length ∨
    (unread.length + bs.m_read_buffer_size.toNat < size.toNat ∧ unread = []) ∨
    (size.toNat ≤ unread.length + bs.m_read_buffer_size.toNat ∧
      Fits base bs.m_read_buffer_size size unread base_state ∧
      ∀ given state, Refilled base bs.m_read_buffer_size base_state given state → base.Ended state →
        size.toNat ≤ unread.length + given.length)

variable {base : Stream σ} {bs : BufferedStream} {unread : List UInt8} {base_state : σ} {size : UInt32}

/-- From where all bytes so far are copied, the loop goes on to the end of the request
or a failure of the base stream, if the refills fit and do not come to the end of it. -/
theorem completes_from (hbase : base.Returns) (hfits : Fits base bs.m_read_buffer_size size unread base_state)
    (hless : size.toNat ≤ unread.length + bs.m_read_buffer_size.toNat)
    (hends : ∀ given state, Refilled base bs.m_read_buffer_size base_state given state → base.Ended state →
      size.toNat ≤ unread.length + given.length)
    {state : σ} (hending : base.Ending state) {given : List UInt8} {reading : Reading σ}
    (hgiven : Refilled base bs.m_read_buffer_size base_state given state)
    (hmissing : unread.length + given.length < size.toNat)
    (hreading : reading.Holds bs.m_read_buffer_size size (unread ++ given) [] state) :
    ∃ fuel r out self last, loop (read_pass base size) fuel reading = ok (r, out, self, last) ∧
      r.val.toNat = out.length ∧ ∃ given,
        Given base bs.m_read_buffer_size base_state (size.toNat - unread.length) given last ∧
        out = (unread ++ given).take size.toNat := by
  induction hending generalizing given reading with
  | ended hended =>
    have := hends _ _ hgiven hended
    omega
  | @read state _ ih =>
    have hlength : (unread ++ given).length = unread.length + given.length := List.length_append
    obtain ⟨r, data, next, hread, hval, hdata⟩ := hbase state bs.m_read_buffer_size
    rcases hreading.pass_refill (by omega) (by omega) hread hval hdata with
      ⟨hfailed, self, hpass⟩ | ⟨hr, reading', hpass, hreading'⟩
    · refine ⟨1, _, _, _, _, loop_done 0 hpass, length_toUInt32_toNat size (by omega), given,
        .failed hgiven hread hfailed, ?_⟩
      rw [List.take_of_length_le (by omega)]
    · have hbuffer : 0 < bs.m_read_buffer_size.toNat := by omega
      have hrefilled := hgiven.refill hread hr
      have hroom := hfits.room hless hgiven hmissing hread hr
      have htake : unread ++ given ++ data.take size.toNat = (unread ++ (given ++ data)).take size.toNat := by
        rw [← List.append_assoc]
        rcases hroom with hnone | hroom
        · rw [hnone, List.nil_append, List.nil_append]
        · rw [List.take_of_length_le (by omega), List.take_of_length_le (by rw [List.length_append]; omega)]
      by_cases hnone : data = []
      · subst hnone
        rw [List.append_nil] at hrefilled
        obtain ⟨fuel, result⟩ := ih _ _ _ _ hbuffer hread hrefilled hmissing hreading'
        refine ⟨fuel + 1, ?_⟩
        rwa [loop_cont fuel hpass]
      · have hcopies : (unread ++ given).length + min size.toNat data.length ≤ size.toNat := by
          rcases hroom with hempty | hroom
          · rw [hempty, List.length_nil]
            omega
          · omega
        obtain ⟨reading'', hpass', hreading''⟩ := hreading'.pass_copy base (by omega) hnone hcopies
        rw [htake] at hreading''
        by_cases hmore : unread.length + (given ++ data).length < size.toNat
        · have hshort : data.length ≤ size.toNat := by
            rw [List.length_append] at hmore
            omega
          rw [List.take_of_length_le (by rw [List.length_append]; omega),
            List.drop_of_length_le hshort] at hreading''
          obtain ⟨fuel, result⟩ := ih _ _ _ _ hbuffer hread hrefilled hmore hreading''
          refine ⟨fuel + 2, ?_⟩
          rwa [loop_cont (fuel + 1) hpass, loop_cont fuel hpass']
        · have hall : ((unread ++ (given ++ data)).take size.toNat).length = size.toNat := by
            rw [List.length_take, List.length_append]
            omega
          refine ⟨3, ⟨kOk, size⟩, _, reading''.self, next, ?_, hall.symm, given ++ data,
            .enough hrefilled (by omega), rfl⟩
          rw [loop_cont 2 hpass, loop_cont 1 hpass', loop_done 0 (hreading''.pass_end hall)]

theorem Readable.completes_buffered (h : bs.Readable unread) (base : Stream σ) (base_state : σ)
    (hserved : size.toNat ≤ unread.length) : Completes base bs unread base_state size := by
  by_cases hsize : size = 0
  · refine ⟨0, ⟨kOk, 0⟩, [], bs, base_state, ?_, rfl, .inl ⟨[], .enough .start ?_, ?_⟩⟩
    · simp [read, h.attached, hsize]
    · simp [hsize]
    · simp [hsize]
  · have hpos : 0 < size.toNat := Nat.pos_of_ne_zero fun hzero => hsize (UInt32.toNat_inj.mp hzero)
    have hunread : unread ≠ [] := List.length_pos_iff.mp (by omega)
    obtain ⟨reading, hpass, hreading⟩ := (h.start_holds base_state size).pass_copy base hpos hunread (by simp)
    rw [List.nil_append] at hreading
    have hall : (unread.take size.toNat).length = size.toNat := by
      rw [List.length_take]
      omega
    refine ⟨2, ⟨kOk, size⟩, unread.take size.toNat, reading.self, base_state, ?_, hall.symm,
      .inl ⟨[], .enough .start (by omega), by rw [List.append_nil]⟩⟩
    rw [h.read_eq base_state hsize, loop_cont 1 hpass, loop_done 0 (hreading.pass_end hall)]

theorem Readable.completes_of_servable (h : bs.Readable unread) (hbase : base.Returns)
    (hending : base.Ending base_state) (hservable : Servable base bs unread base_state size) :
    Completes base bs unread base_state size := by
  by_cases hserved : size.toNat ≤ unread.length
  · exact h.completes_buffered base base_state hserved
  rcases hservable with hserved' | ⟨hfar, rfl⟩ | ⟨hless, hfits, hends⟩
  · exact absurd hserved' hserved
  · obtain ⟨r, data, next, hread, hval, -⟩ := hbase base_state (size - ([] : List UInt8).length.toUInt32)
    obtain ⟨self, hdirect⟩ := h.read_direct hfar hread
    exact ⟨2, r, _, self, next, hdirect 2 (Nat.le_refl _), hval, .inr ⟨r, data, hread, rfl⟩⟩
  · have hsize : size ≠ 0 := by
      rintro rfl
      exact hserved (Nat.zero_le _)
    obtain ⟨reading, hpasses, hreading⟩ := h.reaches hbase .start hless (by simpa using hserved)
    obtain ⟨fuel, r, out, self, last, hloop, hval, hdelivered⟩ :=
      completes_from hbase hfits hless hends hending .start (by simpa using hserved) hreading
    obtain ⟨passed, hpassed⟩ := hpasses.loop_eq
    refine ⟨passed + fuel, r, out, self, last, ?_, hval, .inl hdelivered⟩
    rw [h.read_eq base_state hsize, hpassed, hloop]

/-- At the end of the base stream the loop refills for ever. -/
theorem Reading.Holds.never_ends {reading : Reading σ} {buffer_size : UInt32} {taken : List UInt8} {state : σ}
    (h : reading.Holds buffer_size size taken [] state) (hmissing : taken.length < size.toNat)
    (hless : size.toNat ≤ taken.length + buffer_size.toNat) (hended : base.Ended state) (fuel : Nat) :
    loop (read_pass base size) fuel reading = div := by
  obtain ⟨ended, hstate, hnexts⟩ := hended
  refine loop_div _ (fun reading => ∃ state, ended state ∧ reading.Holds buffer_size size taken [] state) ?_ fuel
    ⟨state, hstate, h⟩
  rintro reading ⟨state, hstate, hreading⟩
  obtain ⟨next, hread, hnext⟩ := hnexts state hstate buffer_size
  obtain ⟨reading', hpass, hnext'⟩ := hreading.pass_refilled hmissing hless hread rfl (Nat.zero_le _) (by simp)
  exact ⟨reading', hpass, next, hnext, hnext'⟩

theorem Readable.servable_of_completes (h : bs.Readable unread) (hbase : base.Returns)
    (hcompletes : Completes base bs unread base_state size) : Servable base bs unread base_state size := by
  obtain ⟨fuel, r, out, self, last, hread, hval, hdelivered⟩ := hcompletes
  by_cases hserved : size.toNat ≤ unread.length
  · exact .inl hserved
  have hsize : size ≠ 0 := by
    rintro rfl
    exact hserved (Nat.zero_le _)
  rw [h.read_eq base_state hsize] at hread
  by_cases hfar : unread.length + bs.m_read_buffer_size.toNat < size.toNat
  · refine .inr (.inl ⟨hfar, ?_⟩)
    obtain ⟨answer, data, next, hanswer, hcount, -⟩ := hbase base_state (size - unread.length.toUInt32)
    obtain ⟨self', hdirect⟩ := h.read_direct hfar hanswer
    have hloop := hdirect 2 (Nat.le_refl _)
    rw [h.read_eq base_state hsize] at hloop
    have hsame := loop_agree hread (by simp) hloop (by simp)
    rw [ok.injEq, Prod.mk.injEq, Prod.mk.injEq] at hsame
    obtain ⟨rfl, rfl, -⟩ := hsame
    rw [hcount, List.length_append] at hval
    exact List.length_eq_zero_iff.mp (by omega)
  · refine .inr (.inr ⟨by omega, ?_, ?_⟩)
    · by_contra hnot
      obtain ⟨fuel', hfail⟩ := h.overruns hbase hnot
      rw [h.read_eq base_state hsize] at hfail
      cases loop_agree hread (by simp) hfail (by simp)
    · intro given state hgiven hended
      by_contra hmissing
      obtain ⟨reading, hpasses, hreading⟩ := h.reaches hbase hgiven (by omega) (Nat.not_le.mp hmissing)
      obtain ⟨passed, hpassed⟩ := hpasses.loop_eq
      have hdiv := hreading.never_ends (by rw [List.length_append]; omega) (by rw [List.length_append]; omega)
        hended fuel
      rw [← hpassed, loop_mono (Nat.le_add_left fuel passed) hread] at hdiv
      cases hdiv

/-- Over a base stream that ends, `read` returns with the bytes it delivered exactly
for the requests it can serve. -/
theorem read_completes_iff (h : bs.Readable unread) (hbase : base.Returns) (hending : base.Ending base_state)
    (size : UInt32) : Completes base bs unread base_state size ↔ Servable base bs unread base_state size :=
  ⟨h.servable_of_completes hbase, h.completes_of_servable hbase hending⟩

/-- The base stream of the bytes that are left. -/
def left_over : Stream (List UInt8) where
  read left size := ok (⟨kOk, (left.take size.toNat).length.toUInt32⟩, left.take size.toNat, left.drop size.toNat)
  write left data := ok (⟨kOk, data.length.toUInt32⟩, left)
  flush left := ok left

theorem left_over_returns : left_over.Returns := fun _ size =>
  have hle := List.length_take_le _ _
  ⟨_, _, _, rfl, length_toUInt32_toNat size hle, hle⟩

theorem left_over_ended_iff {left : List UInt8} : left_over.Ended left ↔ left = [] := by
  constructor
  · rintro ⟨ended, hleft, hreads⟩
    obtain ⟨next, hread, -⟩ := hreads left hleft 1
    simp only [left_over, ok.injEq, Prod.mk.injEq, List.take_eq_nil_iff] at hread
    exact hread.2.1.resolve_left (by decide)
  · rintro rfl
    refine ⟨(· = []), rfl, ?_⟩
    rintro _ rfl size
    exact ⟨[], by simp [left_over], rfl⟩

theorem left_over_ending (left : List UInt8) : left_over.Ending left := by
  induction hlength : left.length using Nat.strong_induction_on generalizing left with
  | _ length ih =>
    by_cases hnone : left = []
    · exact .ended (left_over_ended_iff.mpr hnone)
    · refine .read fun size r data next hsize hread => ?_
      cases hread
      have hpos := List.length_pos_iff.mpr hnone
      exact ih _ (by rw [List.length_drop]; omega) _ rfl

theorem Refilled.left_over {buffer_size : UInt32} {start given left : List UInt8}
    (hgiven : Refilled left_over buffer_size start given left) : given ++ left = start := by
  induction hgiven with
  | start => rfl
  | refill _ hread _ ih =>
    cases hread
    rw [List.append_assoc, List.take_append_drop, ih]

/-- One byte is buffered and one is left in the base stream: both are delivered. -/
theorem read_completes_last_byte : Completes left_over one_unread [7] [8] 2 := by
  refine (read_completes_iff one_unread_readable left_over_returns (left_over_ending [8]) 2).mpr
    (.inr (.inr ⟨by decide, .inr (.inr ?_), ?_⟩))
  · intro given left r data next hgiven _ _ hread _
    cases hread
    have hlength := congrArg List.length hgiven.left_over
    simp only [List.length_append, List.length_cons, List.length_nil, List.length_take] at hlength ⊢
    change 0 + 1 + given.length + _ ≤ 2
    omega
  · intro given left hgiven hended
    have hall := hgiven.left_over
    rw [left_over_ended_iff.mp hended, List.append_nil] at hall
    subst hall
    decide

/-- One byte is buffered, two are asked for, and the base stream has no more: `read`
does not return. -/
theorem read_never_returns : one_unread.read left_over [] 2 = fun _ => div := by
  funext fuel
  have hstart := one_unread_readable.start_holds ([] : List UInt8) 2
  obtain ⟨reading, hpass, hreading⟩ := hstart.pass_copy left_over (by decide) (by decide) (by decide)
  rw [one_unread_readable.read_eq [] (by decide)]
  cases fuel with
  | zero => rfl
  | succ fuel =>
    rw [loop_cont fuel hpass]
    exact hreading.never_ends (by decide) (by decide) (left_over_ended_iff.mpr rfl) fuel

end BufferedStream

end kfw.io

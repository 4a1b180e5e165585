import Kfw.Io.BufferedStream.Unread

open exec Result

namespace kfw.io

/-- Every read comes back and says how many bytes it put in the buffer, which are no
more than it was asked for. -/
def Stream.Returns {σ : Type} (stream : Stream σ) : Prop :=
  ∀ state size, ∃ r data next, stream.read state size = ok (r, data, next) ∧
    r.val.toNat = data.length ∧ data.length ≤ size.toNat

theorem Stream.Returns.answer {σ : Type} {stream : Stream σ} (h : stream.Returns) {state next : σ} {size : UInt32}
    {r : RetVal UInt32} {data : List UInt8} (hread : stream.read state size = ok (r, data, next)) :
    r.val.toNat = data.length ∧ data.length ≤ size.toNat := by
  obtain ⟨r', data', next', hread', hanswer⟩ := h state size
  obtain ⟨rfl, rfl, rfl⟩ : r' = r ∧ data' = data ∧ next' = next := by simpa [hread] using hread'.symm
  exact hanswer

namespace BufferedStream

variable {σ : Type}

/-- What successive reads of `buffer_size` bytes from the base stream, none of which
failed, gave, and the state they left it in. -/
inductive Refilled (base : Stream σ) (buffer_size : UInt32) (start : σ) : List UInt8 → σ → Prop where
  | start : Refilled base buffer_size start [] start
  | refill {given : List UInt8} {state next : σ} {r : RetVal UInt32} {data : List UInt8}
      (hgiven : Refilled base buffer_size start given state)
      (hread : base.read state buffer_size = ok (r, data, next)) (hr : is_failed r.ret = false) :
      Refilled base buffer_size start (given ++ data) next

/-- Where the loop of `read` stands, in terms of the bytes it has put in the caller's
buffer and those it has in its own. -/
structure Reading.Holds (reading : Reading σ) (buffer_size size : UInt32) (taken unread : List UInt8)
    (base_state : σ) : Prop where
  readable : reading.self.Readable unread
  buffer_size_eq : reading.self.m_read_buffer_size = buffer_size
  base_state_eq : reading.base_state = base_state
  out_eq : reading.out = taken
  total : taken.length + reading.remain_size.toNat = size.toNat

variable {base : Stream σ} {buffer_size size : UInt32} {reading : Reading σ} {taken unread : List UInt8}
  {base_state : σ}

theorem length_toUInt32_toNat (size : UInt32) {bytes : List UInt8} (hbytes : bytes.length ≤ size.toNat) :
    bytes.length.toUInt32.toNat = bytes.length :=
  Nat.mod_eq_of_lt (Nat.lt_of_le_of_lt hbytes size.toNat_lt)

namespace Reading.Holds

theorem remain_ne_zero (h : reading.Holds buffer_size size taken unread base_state)
    (hmissing : taken.length < size.toNat) : reading.remain_size ≠ 0 := by
  have htotal := h.total
  rintro hzero
  rw [hzero, UInt32.toNat_zero] at htotal
  omega

/-- All bytes are there. -/
theorem pass_end (h : reading.Holds buffer_size size taken unread base_state) (hall : taken.length = size.toNat) :
    read_pass base size reading = ok (.done (⟨kOk, size⟩, taken, reading.self, base_state)) := by
  have hremain : reading.remain_size = 0 := by
    have htotal := h.total
    rw [← UInt32.toNat_inj, UInt32.toNat_zero]
    omega
  simp [read_pass, hremain, h.out_eq, h.base_state_eq]

theorem buffered_pos (h : reading.Holds buffer_size size taken unread base_state) (hunread : unread ≠ []) :
    reading.self.m_read_buffer_wp - reading.self.m_read_buffer_rp > 0 := by
  rw [gt_iff_lt, UInt32.lt_iff_toNat_lt, h.readable.remain_eq]
  exact List.length_pos_iff.mpr hunread

/-- The number of bytes that a pass copies from the read buffer. -/
theorem copy_size_toNat (h : reading.Holds buffer_size size taken unread base_state) :
    (if size > reading.self.m_read_buffer_wp - reading.self.m_read_buffer_rp then
      reading.self.m_read_buffer_wp - reading.self.m_read_buffer_rp else size).toNat =
      min size.toNat unread.length := by
  have hremain := h.readable.remain_eq
  split
  · rename_i hmore
    rw [gt_iff_lt, UInt32.lt_iff_toNat_lt, hremain] at hmore
    rw [hremain, Nat.min_eq_right (Nat.le_of_lt hmore)]
  · rename_i hless
    rw [gt_iff_lt, UInt32.lt_iff_toNat_lt, hremain, Nat.not_lt] at hless
    rw [Nat.min_eq_left hless]

/-- A pass that finds bytes in the read buffer copies as many as there are, or `size`
of them, whether they fit in the caller's buffer or not. -/
theorem pass_buffered (base : Stream σ) (h : reading.Holds buffer_size size taken unread base_state)
    (hmissing : taken.length < size.toNat) (hunread : unread ≠ []) :
    ∃ copy_size : UInt32, copy_size.toNat = min size.toNat unread.length ∧
      read_pass base size reading =
        if size.toNat < taken.length + copy_size.toNat then fail .invalid_access
        else ok (.cont {
          self := { reading.self with m_read_buffer_rp := reading.self.m_read_buffer_rp + copy_size }
          base_state
          remain_size := reading.remain_size - copy_size
          out := taken ++ unread.take copy_size.toNat }) := by
  have hcopy := h.copy_size_toNat
  obtain ⟨copy_size, hdef⟩ : ∃ copy_size,
      (if size > reading.self.m_read_buffer_wp - reading.self.m_read_buffer_rp then
        reading.self.m_read_buffer_wp - reading.self.m_read_buffer_rp else size) = copy_size := ⟨_, rfl⟩
  rw [hdef] at hcopy
  have hle : copy_size.toNat ≤ unread.length := hcopy ▸ Nat.min_le_right _ _
  have henough : ¬ min copy_size.toNat unread.length < copy_size.toNat := by omega
  refine ⟨copy_size, hcopy, ?_⟩
  simp only [read_pass, h.remain_ne_zero hmissing, if_false, h.buffered_pos hunread, if_true, hdef,
    (h.readable.copy copy_size hle).1, List.length_take, h.out_eq, h.base_state_eq, henough, false_or]

/-- A pass that takes bytes from the read buffer: as many as there are, or `size`. -/
theorem pass_copy (base : Stream σ) (h : reading.Holds buffer_size size taken unread base_state)
    (hmissing : taken.length < size.toNat) (hunread : unread ≠ [])
    (hfits : taken.length + min size.toNat unread.length ≤ size.toNat) :
    ∃ next, read_pass base size reading = ok (.cont next) ∧
      next.Holds buffer_size size (taken ++ unread.take size.toNat) (unread.drop size.toNat) base_state := by
  obtain ⟨copy_size, hcopy, hpass⟩ := h.pass_buffered base hmissing hunread
  have htotal := h.total
  have hremain : (reading.remain_size - copy_size).toNat = reading.remain_size.toNat - copy_size.toNat :=
    UInt32.toNat_sub_of_le _ _ (UInt32.le_iff_toNat_le.mpr (by omega))
  have htake : unread.take copy_size.toNat = unread.take size.toNat := by
    rw [hcopy, ← List.take_eq_take_min]
  have hdrop : unread.drop copy_size.toNat = unread.drop size.toNat := by
    rw [hcopy, ← List.drop_eq_drop_min]
  rw [if_neg (by omega)] at hpass
  refine ⟨_, hpass, ?_, h.buffer_size_eq, rfl, by rw [htake], ?_⟩
  · rw [← hdrop]
    exact (h.readable.copy copy_size (by omega)).2
  · rw [List.length_append, List.length_take, hremain]
    omega

/-- A pass that copies more bytes than are missing. -/
theorem pass_overrun (base : Stream σ) (h : reading.Holds buffer_size size taken unread base_state)
    (hmissing : taken.length < size.toNat) (hunread : unread ≠ [])
    (hover : size.toNat < taken.length + min size.toNat unread.length) :
    read_pass base size reading = fail .invalid_access := by
  obtain ⟨copy_size, hcopy, hpass⟩ := h.pass_buffered base hmissing hunread
  rw [hpass, hcopy, if_pos hover]

theorem buffered_none (h : reading.Holds buffer_size size taken [] base_state) :
    ¬ reading.self.m_read_buffer_wp - reading.self.m_read_buffer_rp > 0 := by
  rw [gt_iff_lt, UInt32.lt_iff_toNat_lt, h.readable.remain_eq]
  exact Nat.lt_irrefl 0

/-- A pass that finds the read buffer empty and more bytes missing than it could hold. -/
theorem pass_direct (base : Stream σ) (h : reading.Holds buffer_size size taken [] base_state)
    (hdirect : taken.length + buffer_size.toNat < size.toNat) :
    read_pass base size reading = (do
      let (r, data, next) ← base.read base_state reading.remain_size
      ok (.done (r, taken ++ data, reading.self, next))) := by
  have htotal := h.total
  have hmore : reading.remain_size > reading.self.m_read_buffer_size := by
    rw [gt_iff_lt, UInt32.lt_iff_toNat_lt, h.buffer_size_eq]
    omega
  simp only [read_pass, h.remain_ne_zero (by omega), if_false, h.buffered_none, hmore, if_true, h.base_state_eq,
    h.out_eq]

/-- A pass that refills the read buffer, with what it finds there if the base stream
does not fail. -/
theorem pass_refill (h : reading.Holds buffer_size size taken [] base_state)
    (hmissing : taken.length < size.toNat) (hless : size.toNat ≤ taken.length + buffer_size.toNat)
    {r : RetVal UInt32} {data : List UInt8} {next_state : σ}
    (hread : base.read base_state buffer_size = ok (r, data, next_state)) (hval : r.val.toNat = data.length)
    (hdata : data.length ≤ buffer_size.toNat) :
    (is_failed r.ret = true ∧ ∃ next, read_pass base size reading =
        ok (.done (⟨r.ret, taken.length.toUInt32⟩, taken, next, next_state))) ∨
      is_failed r.ret = false ∧ ∃ next, read_pass base size reading = ok (.cont next) ∧
        next.Holds buffer_size size taken data next_state := by
  have htotal := h.total
  have hmore : ¬ reading.remain_size > reading.self.m_read_buffer_size := by
    rw [gt_iff_lt, UInt32.lt_iff_toNat_lt, h.buffer_size_eq]
    omega
  rw [← h.buffer_size_eq] at hdata
  rw [← h.buffer_size_eq, ← h.base_state_eq] at hread
  have hroom : ¬ reading.self.m_read_buffer.length < data.length := by
    have := h.readable.size_le
    omega
  have htaken : size - reading.remain_size = taken.length.toUInt32 := by
    rw [← UInt32.toNat_inj, UInt32.toNat_sub_of_le _ _ (UInt32.le_iff_toNat_le.mpr (by omega))]
    have hlength := length_toUInt32_toNat size (show taken.length ≤ size.toNat by omega)
    omega
  by_cases hr : is_failed r.ret = true
  · refine .inl ⟨hr, { reading.self with
      m_read_buffer := data ++ reading.self.m_read_buffer.drop data.length }, ?_⟩
    simp only [read_pass, h.remain_ne_zero hmissing, if_false, h.buffered_none, hmore, hread, bind_ok, hroom, hr,
      if_true, h.out_eq, htaken]
  · refine .inr ⟨by simpa using hr, { reading with
      self := { reading.self with
        m_read_buffer := data ++ reading.self.m_read_buffer.drop data.length
        m_read_buffer_rp := 0
        m_read_buffer_wp := r.val }
      base_state := next_state }, ?_, h.readable.refill hval hdata, h.buffer_size_eq, rfl, h.out_eq, htotal⟩
    simp only [read_pass, h.remain_ne_zero hmissing, if_false, h.buffered_none, hmore, hread, bind_ok, hroom, hr,
      Bool.false_eq_true]

/-- A base stream that does not fail has its bytes in the read buffer then. -/
theorem pass_refilled (h : reading.Holds buffer_size size taken [] base_state)
    (hmissing : taken.length < size.toNat) (hless : size.toNat ≤ taken.length + buffer_size.toNat)
    {r : RetVal UInt32} {data : List UInt8} {next_state : σ}
    (hread : base.read base_state buffer_size = ok (r, data, next_state)) (hval : r.val.toNat = data.length)
    (hdata : data.length ≤ buffer_size.toNat) (hr : is_failed r.ret = false) :
    ∃ next, read_pass base size reading = ok (.cont next) ∧ next.Holds buffer_size size taken data next_state := by
  rcases h.pass_refill hmissing hless hread hval hdata with ⟨hfailed, _⟩ | ⟨_, hnext⟩
  · rw [hr] at hfailed
    cases hfailed
  · exact hnext

end Reading.Holds

variable {bs : BufferedStream}

/-- The state in which `read` enters its loop. -/
def start (bs : BufferedStream) (base_state : σ) (size : UInt32) : Reading σ :=
  { self := bs, base_state, remain_size := size }

theorem Readable.start_holds (h : bs.Readable unread) (base_state : σ) (size : UInt32) :
    (bs.start base_state size).Holds bs.m_read_buffer_size size [] unread base_state :=
  ⟨h, rfl, rfl, rfl, Nat.zero_add _⟩

theorem Readable.read_eq (h : bs.Readable unread) (base_state : σ) (hsize : size ≠ 0) (fuel : Nat) :
    bs.read base base_state size fuel = loop (read_pass base size) fuel (bs.start base_state size) := by
  simp [read, h.attached, hsize, start]

/-- As long as bytes are missing that the read buffer could hold, the loop comes past
the point where all bytes of the buffer and of the refills so far are copied. -/
theorem Readable.reaches (h : bs.Readable unread) (hbase : base.Returns) {given : List UInt8} {state : σ}
    (hgiven : Refilled base bs.m_read_buffer_size base_state given state)
    (hless : size.toNat ≤ unread.length + bs.m_read_buffer_size.toNat)
    (hmissing : unread.length + given.length < size.toNat) :
    ∃ reading, Passes (read_pass base size) (bs.start base_state size) reading ∧
      reading.Holds bs.m_read_buffer_size size (unread ++ given) [] state := by
  induction hgiven with
  | start =>
    have hstart := h.start_holds base_state size
    rw [List.length_nil, Nat.add_zero] at hmissing
    by_cases hunread : unread = []
    · subst hunread
      exact ⟨_, .start, hstart⟩
    · obtain ⟨next, hpass, hnext⟩ := hstart.pass_copy base (by simpa using by omega) hunread (by simp)
      rw [List.take_of_length_le (by omega), List.drop_of_length_le (by omega)] at hnext
      exact ⟨next, .next .start hpass, by simpa using hnext⟩
  | @refill given state next r data hgiven hread hr ih =>
    rw [List.length_append] at hmissing
    obtain ⟨reading, hpasses, hreading⟩ := ih (by omega)
    obtain ⟨hval, hdata⟩ := hbase.answer hread
    obtain ⟨reading', hpass, hreading'⟩ :=
      hreading.pass_refilled (by simpa using by omega) (by simpa using by omega) hread hval hdata hr
    by_cases hnone : data = []
    · subst hnone
      exact ⟨reading', hpasses.next hpass, by simpa using hreading'⟩
    · obtain ⟨reading'', hpass', hreading''⟩ := hreading'.pass_copy base (by simpa using by omega) hnone
        (by simp only [List.length_append]; omega)
      rw [List.take_of_length_le (by omega), List.drop_of_length_le (by omega), List.append_assoc] at hreading''
      exact ⟨reading'', (hpasses.next hpass).next hpass', hreading''⟩

/-- No refill that the loop makes after it has copied something gives more bytes than
are still missing. A request that the buffered bytes can serve makes no refill, and
neither does one that exceeds them by more than the read buffer holds. -/
def Fits (base : Stream σ) (buffer_size size : UInt32) (unread : List UInt8) (base_state : σ) : Prop :=
  size.toNat ≤ unread.length ∨ unread.length + buffer_size.toNat < size.toNat ∨
    ∀ given state r data next, Refilled base buffer_size base_state given state →
      0 < unread.length + given.length → unread.length + given.length < size.toNat →
      base.read state buffer_size = ok (r, data, next) → is_failed r.ret = false →
      unread.length + given.length + data.length ≤ size.toNat

/-- What a refill gives fits in the caller's buffer, unless it is the first to be copied. -/
theorem Fits.room (hfits : Fits base buffer_size size unread base_state)
    (hless : size.toNat ≤ unread.length + buffer_size.toNat) {given : List UInt8} {state : σ}
    (hgiven : Refilled base buffer_size base_state given state)
    (hmissing : unread.length + given.length < size.toNat) {r : RetVal UInt32} {data : List UInt8} {next : σ}
    (hread : base.read state buffer_size = ok (r, data, next)) (hr : is_failed r.ret = false) :
    unread ++ given = [] ∨ unread.length + given.length + data.length ≤ size.toNat := by
  by_cases hnone : unread ++ given = []
  · exact .inl hnone
  · have hpos := List.length_pos_iff.mpr hnone
    rw [List.length_append] at hpos
    rcases hfits with hserved | hfar | hfits
    · omega
    · omega
    · exact .inr (hfits given state r data next hgiven hpos hmissing hread hr)

/-- `read` stays within the caller's buffer, of which there are `size` bytes: no copy
goes past its end, what remains is always what is not yet copied, and no more than
`size` bytes are delivered. -/
structure Bounded (base : Stream σ) (bs : BufferedStream) (base_state : σ) (size : UInt32) : Prop where
  in_bounds : ∀ fuel, bs.read base base_state size fuel ≠ fail .invalid_access
  remaining : ∀ reading, Passes (read_pass base size) (bs.start base_state size) reading →
    reading.out.length + reading.remain_size.toNat = size.toNat
  delivered : ∀ fuel r out next state, bs.read base base_state size fuel = ok (r, out, next, state) →
    out.length ≤ size.toNat

/-- What is true before every pass: the bytes copied and those in the read buffer are
those of the buffer and of the refills, in order, and those in the buffer fit. -/
def Reading.Fitting (base : Stream σ) (bs : BufferedStream) (unread : List UInt8) (base_state : σ) (size : UInt32)
    (reading : Reading σ) : Prop :=
  ∃ given taken buffered state, reading.Holds bs.m_read_buffer_size size taken buffered state ∧
    Refilled base bs.m_read_buffer_size base_state given state ∧ taken ++ buffered = unread ++ given ∧
    (unread.length + bs.m_read_buffer_size.toNat < size.toNat → given = []) ∧
    (taken.length = size.toNat ∨ buffered = [] ∨ taken = [] ∨ taken.length + buffered.length ≤ size.toNat)

theorem Reading.Fitting.pass (hbase : base.Returns)
    (hfits : Fits base bs.m_read_buffer_size size unread base_state)
    (h : reading.Fitting base bs unread base_state size) :
    ∃ flow, read_pass base size reading = ok flow ∧
      flow.Meets (Reading.Fitting base bs unread base_state size)
        fun result => result.2.1.length ≤ size.toNat := by
  obtain ⟨given, taken, buffered, state, hreading, hgiven, hbytes, hdirect, hroom⟩ := h
  have htotal := hreading.total
  have hlengths : taken.length + buffered.length = unread.length + given.length := by
    simpa using congrArg List.length hbytes
  by_cases hall : taken.length = size.toNat
  · exact ⟨_, hreading.pass_end hall, Nat.le_of_eq hall⟩
  by_cases hbuffered : buffered = []
  · subst hbuffered
    rw [List.append_nil] at hbytes
    by_cases hmore : taken.length + bs.m_read_buffer_size.toNat < size.toNat
    · obtain ⟨r, data, next, hread, -, hdata⟩ := hbase state reading.remain_size
      refine ⟨_, by rw [hreading.pass_direct base hmore, hread, bind_ok], ?_⟩
      show (taken ++ data).length ≤ size.toNat
      rw [List.length_append]
      omega
    · obtain ⟨r, data, next, hread, hval, hdata⟩ := hbase state bs.m_read_buffer_size
      have hlength : taken.length = unread.length + given.length := by simpa using hlengths
      have hnear : ¬ unread.length + bs.m_read_buffer_size.toNat < size.toNat := by
        intro hfar
        rw [hdirect hfar, List.length_nil] at hlength
        omega
      rcases hreading.pass_refill (by omega) (by omega) hread hval hdata with
        ⟨-, self, hpass⟩ | ⟨hr, reading', hpass, hreading'⟩
      · exact ⟨_, hpass, show taken.length ≤ size.toNat by omega⟩
      · refine ⟨_, hpass, given ++ data, taken, data, next, hreading', hgiven.refill hread hr, ?_,
          fun hfar => absurd hfar hnear, ?_⟩
        · rw [hbytes, List.append_assoc]
        · rcases hfits.room (Nat.not_lt.mp hnear) hgiven (by omega) hread hr with hnone | hroom
          · exact .inr (.inr (.inl (hbytes.trans hnone)))
          · exact .inr (.inr (.inr (by omega)))
  · have hcopies : taken.length + min size.toNat buffered.length ≤ size.toNat := by
      rcases hroom with hroom | hroom | hroom | hroom
      · exact absurd hroom hall
      · exact absurd hroom hbuffered
      · rw [hroom]
        simp
      · omega
    obtain ⟨reading', hpass, hreading'⟩ := hreading.pass_copy base (by omega) hbuffered hcopies
    refine ⟨_, hpass, given, _, _, state, hreading', hgiven, ?_, hdirect, ?_⟩
    · rw [List.append_assoc, List.take_append_drop, hbytes]
    · by_cases hlong : buffered.length ≤ size.toNat
      · exact .inr (.inl (List.drop_of_length_le hlong))
      · refine .inl ?_
        rw [List.length_append, List.length_take]
        omega

theorem Readable.start_fitting (h : bs.Readable unread) (base : Stream σ) (base_state : σ) (size : UInt32) :
    (bs.start base_state size).Fitting base bs unread base_state size :=
  ⟨[], [], unread, base_state, h.start_holds base_state size, .start, by simp, fun _ => rfl,
    .inr (.inr (.inl rfl))⟩

theorem Readable.bounded_of_fits (h : bs.Readable unread) (hbase : base.Returns)
    (hfits : Fits base bs.m_read_buffer_size size unread base_state) : Bounded base bs base_state size := by
  have hstart := h.start_fitting base base_state size
  have hpass := fun (reading : Reading σ) (hreading : reading.Fitting base bs unread base_state size) =>
    hreading.pass hbase hfits
  constructor
  · intro fuel
    by_cases hsize : size = 0
    · simp [read, h.attached, hsize]
    · rw [h.read_eq base_state hsize]
      exact loop_ne_fail _ _ _ hpass fuel hstart _
  · intro reading hreading
    have hfitting := hreading.invariant (Reading.Fitting base bs unread base_state size) (by
      intro state next hstate hnext
      obtain ⟨flow, hflow, hmeets⟩ := hpass state hstate
      rw [hnext, ok.injEq] at hflow
      rwa [← hflow] at hmeets) hstart
    obtain ⟨_, taken, _, _, hholds, _⟩ := hfitting
    rw [hholds.out_eq]
    exact hholds.total
  · intro fuel r out next state hread
    by_cases hsize : size = 0
    · simp only [read, h.attached, hsize, not_true, if_false, if_true, ok.injEq, Prod.mk.injEq] at hread
      simp [← hread.2.1]
    · rw [h.read_eq base_state hsize] at hread
      exact loop_invariant (read_pass base size) (Reading.Fitting base bs unread base_state size)
        (fun result => result.2.1.length ≤ size.toNat) (by
        intro state flow hstate hflow
        obtain ⟨flow', hflow', hmeets⟩ := hpass state hstate
        rw [hflow, ok.injEq] at hflow'
        rwa [← hflow'] at hmeets) hstart hread

/-- A refill with more bytes than are missing, once something was copied, makes the
next pass copy past the end of the caller's buffer. -/
theorem Readable.overruns (h : bs.Readable unread) (hbase : base.Returns)
    (hnot : ¬ Fits base bs.m_read_buffer_size size unread base_state) :
    ∃ fuel, bs.read base base_state size fuel = fail .invalid_access := by
  simp only [Fits, not_or, not_forall, Nat.not_le, Nat.not_lt] at hnot
  obtain ⟨hmissing, hless, given, state, r, data, next, hgiven, hpos, hbytes, hread, hr, hover⟩ := hnot
  obtain ⟨reading, hpasses, hreading⟩ := h.reaches hbase hgiven hless hbytes
  obtain ⟨hval, hdata⟩ := hbase.answer hread
  obtain ⟨reading', hpass, hreading'⟩ :=
    hreading.pass_refilled (by simpa using by omega) (by simpa using by omega) hread hval hdata hr
  have hsome : data ≠ [] := by
    rintro rfl
    simp only [List.length_nil] at hover
    omega
  have hfail := hreading'.pass_overrun base (by simpa using by omega) hsome
    (by simp only [List.length_append]; omega)
  obtain ⟨passed, hpassed⟩ := (hpasses.next hpass).loop_eq
  have hsize : size ≠ 0 := by
    rintro rfl
    exact absurd hmissing (Nat.not_lt_zero _)
  refine ⟨passed + 1, ?_⟩
  rw [h.read_eq base_state hsize, hpassed, loop, hfail, bind_fail]

/-- `read` stays within the caller's buffer exactly if no refill after the first copied
byte gives more than is still missing. -/
theorem read_bounded_iff (h : bs.Readable unread) (hbase : base.Returns) (base_state : σ) (size : UInt32) :
    Bounded base bs base_state size ↔ Fits base bs.m_read_buffer_size size unread base_state := by
  refine ⟨fun hbounded => ?_, h.bounded_of_fits hbase⟩
  by_contra hnot
  obtain ⟨fuel, hfail⟩ := h.overruns hbase hnot
  exact hbounded.in_bounds fuel hfail

/-- A base stream that gives as many bytes as it is asked for. -/
def zeros : Stream Unit where
  read _ size := ok (⟨kOk, size⟩, List.replicate size.toNat 0, ())
  write _ data := ok (⟨kOk, data.length.toUInt32⟩, ())
  flush _ := ok ()

theorem zeros_returns : zeros.Returns :=
  fun _ _ => ⟨_, _, _, rfl, List.length_replicate.symm, Nat.le_of_eq List.length_replicate⟩

/-- One unread byte in a read buffer of four. -/
def one_unread : BufferedStream where
  m_base_stream := true
  m_read_buffer := [7, 0, 0, 0]
  m_read_buffer_size := 4
  m_read_buffer_wp := 1

theorem one_unread_readable : one_unread.Readable [7] := by
  constructor <;> decide

theorem read_bounded_one : Bounded zeros one_unread () 1 :=
  (read_bounded_iff one_unread_readable zeros_returns () 1).mpr (.inl (by decide))

/-- One byte is copied, then a refill gives four bytes of which three are copied, into
a buffer of three. -/
theorem read_overruns_three :
    one_unread.read zeros () 3 4 = fail .invalid_access ∧ ¬ Bounded zeros one_unread () 3 :=
  ⟨rfl, fun hbounded => hbounded.in_bounds 4 rfl⟩

/-- A request that exceeds the buffered bytes by more than the read buffer holds: they
are copied and the rest is read directly, with the answer of the base stream alone. -/
theorem Readable.read_direct (h : bs.Readable unread)
    (hfar : unread.length + bs.m_read_buffer_size.toNat < size.toNat) {r : RetVal UInt32} {data : List UInt8}
    {next : σ} (hread : base.read base_state (size - unread.length.toUInt32) = ok (r, data, next)) :
    ∃ self, ∀ fuel, 2 ≤ fuel → bs.read base base_state size fuel = ok (r, unread ++ data, self, next) := by
  have hlength := length_toUInt32_toNat size (show unread.length ≤ size.toNat by omega)
  have hsize : size ≠ 0 := by
    rintro rfl
    exact absurd hfar (Nat.not_lt_zero _)
  have hstart := h.start_holds base_state size
  -- the pass that reads directly, from wherever the bytes of the buffer are copied
  have hdirect : ∀ reading : Reading σ, reading.Holds bs.m_read_buffer_size size unread [] base_state →
      read_pass base size reading = ok (.done (r, unread ++ data, reading.self, next)) := by
    intro reading hreading
    have hremain : reading.remain_size = size - unread.length.toUInt32 := by
      have htotal := hreading.total
      rw [← UInt32.toNat_inj, UInt32.toNat_sub_of_le _ _ (UInt32.le_iff_toNat_le.mpr (by omega))]
      omega
    rw [hreading.pass_direct base hfar, hremain, hread, bind_ok]
  by_cases hunread : unread = []
  · subst hunread
    refine ⟨bs, fun fuel hfuel => ?_⟩
    obtain ⟨fuel, rfl⟩ : ∃ rest, fuel = rest + 1 := ⟨fuel - 1, by omega⟩
    rw [h.read_eq base_state hsize, loop_done fuel (hdirect _ hstart)]
    rfl
  · obtain ⟨reading, hpass, hreading⟩ := hstart.pass_copy base (by simpa using by omega) hunread (by simp)
    rw [List.take_of_length_le (by omega), List.drop_of_length_le (by omega), List.nil_append] at hreading
    refine ⟨reading.self, fun fuel hfuel => ?_⟩
    obtain ⟨fuel, rfl⟩ : ∃ rest, fuel = rest + 2 := ⟨fuel - 2, by omega⟩
    rw [h.read_eq base_state hsize, loop_cont (fuel + 1) hpass, loop_done fuel (hdirect _ hreading)]

/-- The answer of a direct read counts the buffered bytes and those of the base stream,
which are in the caller's buffer in this order, whether the base stream fails or not. -/
def CountsDirect (base : Stream σ) (bs : BufferedStream) (unread : List UInt8) (base_state : σ) (size : UInt32) :
    Prop :=
  ∀ r data next, base.read base_state (size - unread.length.toUInt32) = ok (r, data, next) →
    ∃ val self, val.toNat = unread.length + data.length ∧
      ∀ fuel, 2 ≤ fuel → bs.read base base_state size fuel = ok (⟨r.ret, val⟩, unread ++ data, self, next)

/-- A direct read counts what it delivers exactly if nothing was buffered. -/
theorem counts_direct_iff (h : bs.Readable unread) (hbase : base.Returns) (base_state : σ) {size : UInt32}
    (hfar : unread.length + bs.m_read_buffer_size.toNat < size.toNat) :
    CountsDirect base bs unread base_state size ↔ unread = [] := by
  constructor
  · intro hcounts
    obtain ⟨r, data, next, hread, hval, -⟩ := hbase base_state (size - unread.length.toUInt32)
    obtain ⟨val, self, hvalue, hcounted⟩ := hcounts r data next hread
    obtain ⟨self', hdirect⟩ := h.read_direct hfar hread
    have hsame : r = ⟨r.ret, val⟩ := by
      have heq := (hdirect 2 (Nat.le_refl _)).symm.trans (hcounted 2 (Nat.le_refl _))
      exact congrArg Prod.fst (ok.inj heq)
    have hequal : r.val = val := congrArg RetVal.val hsame
    rw [← hequal, hval] at hvalue
    exact List.length_eq_zero_iff.mp (by omega)
  · rintro rfl r data next hread
    obtain ⟨self, hdirect⟩ := h.read_direct hfar hread
    exact ⟨r.val, self, by simpa using (hbase.answer hread).1, hdirect⟩

theorem counts_direct_five :
    CountsDirect zeros { one_unread with m_read_buffer_wp := 0 } [] () 5 :=
  (counts_direct_iff (by constructor <;> decide) zeros_returns () (by decide)).mpr rfl

/-- The buffered byte and five others are delivered, and five are counted. -/
theorem direct_read_uncounted :
    ∃ self, one_unread.read zeros () 6 2 = ok (⟨kOk, 5⟩, [7, 0, 0, 0, 0, 0], self, ()) :=
  ⟨_, rfl⟩

end BufferedStream

end kfw.io

import Kfw.Io.BufferedStream

open exec Result

namespace kfw.io.BufferedStream

/-- An attached stream whose read buffer holds the bytes `unread`, those from
the read to the write position. -/
structure Readable (bs : BufferedStream) (unread : List UInt8) : Prop where
  attached : bs.m_base_stream = true
  size_le : bs.m_read_buffer_size.toNat ≤ bs.m_read_buffer.length
  rp_le : bs.m_read_buffer_rp.toNat ≤ bs.m_read_buffer_wp.toNat
  wp_le : bs.m_read_buffer_wp.toNat ≤ bs.m_read_buffer.length
  unread_eq : unread = (bs.m_read_buffer.take bs.m_read_buffer_wp.toNat).drop bs.m_read_buffer_rp.toNat

/-- The same with a read buffer that is not empty. -/
structure Buffers (bs : BufferedStream) (unread : List UInt8) : Prop extends bs.Readable unread where
  size_pos : 0 < bs.m_read_buffer_size.toNat

variable {σ : Type} {base : Stream σ} {bs : BufferedStream} {unread : List UInt8}

theorem Readable.remain_eq (h : bs.Readable unread) :
    (bs.m_read_buffer_wp - bs.m_read_buffer_rp).toNat = unread.length := by
  have hrp := h.rp_le
  have hwp := h.wp_le
  rw [UInt32.toNat_sub_of_le _ _ (UInt32.le_iff_toNat_le.mpr hrp), h.unread_eq, List.length_drop,
    List.length_take]
  omega

/-- The first bytes in the buffer are copied from the read position on. -/
theorem Readable.copy (h : bs.Readable unread) (copy_size : UInt32)
    (hcopy : copy_size.toNat ≤ unread.length) :
    (bs.m_read_buffer.drop bs.m_read_buffer_rp.toNat).take copy_size.toNat = unread.take copy_size.toNat ∧
      Readable { bs with m_read_buffer_rp := bs.m_read_buffer_rp + copy_size } (unread.drop copy_size.toNat) := by
  have hremain := h.remain_eq
  have hrp := h.rp_le
  have hwp := h.wp_le
  have hwpLt := bs.m_read_buffer_wp.toNat_lt
  rw [UInt32.toNat_sub_of_le _ _ (UInt32.le_iff_toNat_le.mpr hrp)] at hremain
  have hnext : (bs.m_read_buffer_rp + copy_size).toNat = bs.m_read_buffer_rp.toNat + copy_size.toNat := by
    rw [UInt32.toNat_add]
    exact Nat.mod_eq_of_lt (by omega)
  constructor
  · rw [h.unread_eq, List.drop_take, List.take_take, Nat.min_eq_left (by omega)]
  · exact {
      attached := h.attached
      size_le := h.size_le
      rp_le := by
        simp only [hnext]
        omega
      wp_le := hwp
      unread_eq := by
        rw [h.unread_eq, List.drop_drop, hnext] }

/-- Data put at the start of the buffer does not change its length. -/
theorem Readable.length_overwrite (h : bs.Readable unread) {data : List UInt8}
    (hdata : data.length ≤ bs.m_read_buffer_size.toNat) :
    (data ++ bs.m_read_buffer.drop data.length).length = bs.m_read_buffer.length := by
  have hsize := h.size_le
  rw [List.length_append, List.length_drop]
  omega

/-- What a successful read of the base stream leaves in the buffer. -/
theorem Readable.refill (h : bs.Readable unread) {data : List UInt8} {val : UInt32}
    (hval : val.toNat = data.length) (hdata : data.length ≤ bs.m_read_buffer_size.toNat) :
    Readable { bs with
      m_read_buffer := data ++ bs.m_read_buffer.drop data.length
      m_read_buffer_rp := 0
      m_read_buffer_wp := val } data := by
  have hlength := h.length_overwrite hdata
  have hsize := h.size_le
  exact {
    attached := h.attached
    size_le := by
      simp only [hlength]
      exact hsize
    rp_le := Nat.zero_le _
    wp_le := by
      simp only [hlength, hval]
      omega
    unread_eq := by
      rw [hval, List.take_left]
      rfl }

/-- A read of the base stream that fails may still have put something in the
buffer, where nothing was unread. -/
theorem Readable.spoil (h : bs.Readable []) {data : List UInt8}
    (hdata : data.length ≤ bs.m_read_buffer_size.toNat) :
    Readable { bs with m_read_buffer := data ++ bs.m_read_buffer.drop data.length } [] := by
  have hlength := h.length_overwrite hdata
  have hsame : bs.m_read_buffer_wp.toNat ≤ bs.m_read_buffer_rp.toNat := by
    have hremain := congrArg List.length h.unread_eq
    have hwp := h.wp_le
    rw [List.length_nil, List.length_drop, List.length_take] at hremain
    omega
  exact {
    attached := h.attached
    size_le := by
      simp only [hlength]
      exact h.size_le
    rp_le := h.rp_le
    wp_le := by
      simp only [hlength]
      exact h.wp_le
    unread_eq := by
      symm
      rw [List.drop_eq_nil_iff]
      exact Nat.le_trans (List.length_take_le _ _) hsame }

theorem read_stable {base_state : σ} {size : UInt32} {fuel more : Nat} (hfuel : fuel ≤ more)
    (h : bs.read base base_state size fuel ≠ div) :
    bs.read base base_state size more = bs.read base base_state size fuel := by
  unfold read at h ⊢
  split
  · rfl
  · split
    · rfl
    · rename_i hattached hsize
      rw [if_neg hattached, if_neg hsize] at h
      exact loop_stable hfuel h

/-- A read of one byte that is in the buffer. -/
theorem Buffers.read_buffered {byte : UInt8} (h : bs.Buffers (byte :: unread)) (base : Stream σ)
    (base_state : σ) (fuel : Nat) :
    ∃ next, next.Buffers unread ∧ next.m_read_buffer.length = bs.m_read_buffer.length ∧
      next.m_read_buffer_size = bs.m_read_buffer_size ∧
      loop (read_pass base 1) (fuel + 2) { self := bs, base_state, remain_size := 1 } =
        ok (⟨kOk, 1⟩, [byte], next, base_state) := by
  have hremain := h.remain_eq
  rw [List.length_cons] at hremain
  have hsome : bs.m_read_buffer_wp - bs.m_read_buffer_rp > 0 := by
    rw [gt_iff_lt, UInt32.lt_iff_toNat_lt, hremain]
    exact Nat.succ_pos _
  have hone : ¬ (1 : UInt32) > bs.m_read_buffer_wp - bs.m_read_buffer_rp := by
    rw [gt_iff_lt, UInt32.lt_iff_toNat_lt, hremain]
    exact Nat.not_lt.mpr (Nat.succ_le_succ (Nat.zero_le _))
  obtain ⟨hcopy, hnext⟩ := h.copy 1 (Nat.succ_le_succ (Nat.zero_le _))
  have hbyte : (bs.m_read_buffer.drop bs.m_read_buffer_rp.toNat).take 1 = [byte] := hcopy
  have hpass : read_pass base 1 { self := bs, base_state, remain_size := 1 } = ok (.cont {
      self := { bs with m_read_buffer_rp := bs.m_read_buffer_rp + 1 }
      base_state
      remain_size := 0
      out := [byte] }) := by
    simp [read_pass, hsome, hone, hbyte]
  refine ⟨_, ⟨hnext, h.size_pos⟩, rfl, rfl, ?_⟩
  rw [loop_cont (fuel + 1) hpass, loop_done fuel rfl]
  rfl

/-- For a read of one byte an empty buffer is refilled. -/
theorem Buffers.refills_one (h : bs.Buffers []) :
    ¬ bs.m_read_buffer_wp - bs.m_read_buffer_rp > 0 ∧ ¬ (1 : UInt32) > bs.m_read_buffer_size := by
  have hremain := h.remain_eq
  rw [gt_iff_lt, gt_iff_lt, UInt32.lt_iff_toNat_lt, UInt32.lt_iff_toNat_lt, hremain]
  exact ⟨Nat.lt_irrefl 0, Nat.not_lt.mpr h.size_pos⟩

/-- A read of one byte gives none when the base stream fails. -/
theorem Buffers.read_broken (h : bs.Buffers []) {base_state nextState : σ} {r : RetVal UInt32} {data : List UInt8}
    (hread : base.read base_state bs.m_read_buffer_size = ok (r, data, nextState)) (hr : is_failed r.ret = true)
    (hdata : data.length ≤ bs.m_read_buffer_size.toNat) (fuel : Nat) :
    ∃ next, next.Buffers [] ∧ bs.read base base_state 1 (fuel + 1) = ok (⟨r.ret, 0⟩, [], next, nextState) := by
  obtain ⟨hnone, hsmall⟩ := h.refills_one
  have hfits : ¬ bs.m_read_buffer.length < data.length := Nat.not_lt.mpr (Nat.le_trans hdata h.size_le)
  have hpass : read_pass base 1 { self := bs, base_state, remain_size := 1 } = ok (.done (⟨r.ret, 0⟩, [],
      { bs with m_read_buffer := data ++ bs.m_read_buffer.drop data.length }, nextState)) := by
    simp [read_pass, hnone, hsmall, hread, hfits, hr]
  refine ⟨_, ⟨h.spoil hdata, h.size_pos⟩, ?_⟩
  simp [read, h.attached, loop_done fuel hpass]

/-- A read of one byte from a stream that delivers, wherever the byte is. -/
theorem Buffers.read_one (h : bs.Buffers unread) {pending : σ → List UInt8 → Prop}
    (hbase : base.Delivers pending) {base_state : σ} {more : List UInt8}
    (hpending : pending base_state more) {byte : UInt8} {rest : List UInt8}
    (hrest : unread ++ more = byte :: rest) (fuel : Nat) :
    ∃ next nextState nextUnread nextMore, next.Buffers nextUnread ∧ pending nextState nextMore ∧
      nextUnread ++ nextMore = rest ∧
      bs.read base base_state 1 (fuel + 3) = ok (⟨kOk, 1⟩, [byte], next, nextState) := by
  have hread : bs.read base base_state 1 (fuel + 3) =
      loop (read_pass base 1) (fuel + 3) { self := bs, base_state, remain_size := 1 } := by
    simp [read, h.attached]
  rw [hread]
  cases unread with
  | cons first unread =>
    obtain ⟨rfl, rfl⟩ := List.cons.inj hrest
    obtain ⟨next, hnext, _, _, hloop⟩ := h.read_buffered base base_state (fuel + 1)
    exact ⟨next, base_state, unread, more, hnext, hpending, rfl, hloop⟩
  | nil =>
    rw [List.nil_append] at hrest
    obtain ⟨hnone, hsmall⟩ := h.refills_one
    obtain ⟨data, nextMore, nextState, hdeliver, hdata, hlength, hsplit, hnextPending⟩ :=
      hbase base_state more bs.m_read_buffer_size hpending (by rw [hrest]; simp) h.size_pos
    have hval : data.length.toUInt32.toNat = data.length :=
      Nat.mod_eq_of_lt (Nat.lt_of_le_of_lt hlength bs.m_read_buffer_size.toNat_lt)
    have hfits : ¬ bs.m_read_buffer.length < data.length := by
      have := h.size_le
      omega
    cases data with
    | nil => exact absurd rfl hdata
    | cons first data =>
      rw [hsplit, List.cons_append] at hrest
      obtain ⟨rfl, rfl⟩ := List.cons.inj hrest
      have hfilled : Buffers _ (first :: data) := ⟨h.refill hval hlength, h.size_pos⟩
      obtain ⟨next, hnext, _, _, hloop⟩ := hfilled.read_buffered base nextState fuel
      refine ⟨next, nextState, data, nextMore, hnext, hnextPending, rfl, ?_⟩
      rw [← hloop, loop_cont (fuel + 2)]
      simp only [read_pass, hnone, hsmall, hdeliver, hfits, bind_ok, if_false, is_failed_kOk,
        Bool.false_eq_true]
      rfl

end kfw.io.BufferedStream

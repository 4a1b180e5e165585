import Kfw.Io.BufferedStream.Unread
import Kfw.Lib.Rel

open exec Result

namespace kfw.io.BufferedStream

/-- An attached stream without a write buffer, with the bytes `unread` in its
read buffer of `size` bytes. -/
structure ReadOnly (bs : BufferedStream) (size : UInt32) (unread : List UInt8) : Prop
    extends bs.Buffers unread where
  size_eq : bs.m_read_buffer_size = size
  write_buffer_eq : bs.m_write_buffer = none
  usage_eq : bs.m_write_buffer_usage = 0

/-- An attached stream that writes straight to its base stream. -/
structure Unbuffered (bs : BufferedStream) : Prop where
  attached : bs.m_base_stream = true
  write_buffer_eq : bs.m_write_buffer = none
  usage_eq : bs.m_write_buffer_usage = 0

theorem ReadOnly.unbuffered {bs : BufferedStream} {size : UInt32} {unread : List UInt8}
    (h : bs.ReadOnly size unread) : bs.Unbuffered :=
  ⟨h.attached, h.write_buffer_eq, h.usage_eq⟩

/-- Two streams that a reader cannot tell apart: the same bytes are unread, in
buffers of one size. What else is in the buffers may differ. -/
def Alike (size : UInt32) (left right : BufferedStream) : Prop :=
  ∃ unread, left.ReadOnly size unread ∧ right.ReadOnly size unread

variable {σ : Type} {base : Stream σ} {buffer_size : UInt32}

/-- Answers of reads that differ in nothing but what the read buffers hold
besides the unread bytes. -/
def ReadAlike (buffer_size : UInt32) (left right : RetVal UInt32 × List UInt8 × BufferedStream × σ) : Prop :=
  left.1 = right.1 ∧ left.2.1 = right.2.1 ∧ left.2.2.1.Alike buffer_size right.2.2.1 ∧ left.2.2.2 = right.2.2.2

def ReadingAlike (buffer_size : UInt32) (left right : Reading σ) : Prop :=
  left.self.Alike buffer_size right.self ∧ left.base_state = right.base_state ∧
    left.remain_size = right.remain_size ∧ left.out = right.out

/-- A pass through the loop of `read` depends only on the unread bytes, over a
base stream that fills what it says it fills. -/
theorem read_pass_rel (hbase : base.ReturnsAtMost) (size : UInt32) {left right : Reading σ}
    (h : ReadingAlike buffer_size left right) :
    (read_pass base size left).Rel (Flow.Rel (ReadingAlike buffer_size) (ReadAlike buffer_size))
      (read_pass base size right) := by
  obtain ⟨a, base_state, remain_size, out⟩ := left
  obtain ⟨b, _, _, _⟩ := right
  obtain ⟨halike, hstate, hremain, hout⟩ := h
  simp only at halike hstate hremain hout
  subst hstate hremain hout
  obtain ⟨unread, ha, hb⟩ := id halike
  have hsize : a.m_read_buffer_size = b.m_read_buffer_size := ha.size_eq.trans hb.size_eq.symm
  have hbuffered : a.m_read_buffer_wp - a.m_read_buffer_rp = b.m_read_buffer_wp - b.m_read_buffer_rp :=
    UInt32.toNat_inj.mp (ha.remain_eq.trans hb.remain_eq.symm)
  have hremain := hb.remain_eq
  have hdirect : (remain_size > a.m_read_buffer_size) = (remain_size > b.m_read_buffer_size) := by rw [hsize]
  have hask : base.read base_state a.m_read_buffer_size = base.read base_state b.m_read_buffer_size := by
    rw [hsize]
  unfold read_pass
  simp only [hbuffered, hdirect, hask]
  split
  · exact .ok (.done ⟨rfl, rfl, halike, rfl⟩)
  split
  · -- both take the same bytes from their buffers
    rename_i hsome
    obtain ⟨copy_size, hcopy⟩ : ∃ copy_size, (if size > b.m_read_buffer_wp - b.m_read_buffer_rp then
      b.m_read_buffer_wp - b.m_read_buffer_rp else size) = copy_size := ⟨_, rfl⟩
    have hle : copy_size.toNat ≤ unread.length := by
      rw [← hremain, ← hcopy]
      split
      · exact Nat.le_refl _
      · exact UInt32.le_iff_toNat_le.mp (UInt32.not_lt.mp ‹_›)
    obtain ⟨haCopy, haNext⟩ := ha.copy copy_size hle
    obtain ⟨hbCopy, hbNext⟩ := hb.copy copy_size hle
    simp only [hcopy, haCopy, hbCopy]
    split
    · exact .fail _
    · exact .ok (.cont ⟨⟨_, ⟨⟨haNext, ha.size_pos⟩, ha.size_eq, ha.write_buffer_eq, ha.usage_eq⟩,
        ⟨⟨hbNext, hb.size_pos⟩, hb.size_eq, hb.write_buffer_eq, hb.usage_eq⟩⟩, rfl, rfl, rfl⟩)
  rename_i hnone
  split
  · apply (Result.Rel.same _ fun _ _ => rfl).bind
    rintro ⟨r, data, next⟩ _ rfl
    exact .ok (.done ⟨rfl, rfl, halike, rfl⟩)
  · obtain rfl : unread = [] := by
      rw [gt_iff_lt, UInt32.lt_iff_toNat_lt, hremain] at hnone
      exact List.eq_nil_of_length_eq_zero (Nat.le_zero.mp (Nat.not_lt.mp hnone))
    have hanswer : (base.read base_state b.m_read_buffer_size).Rel (fun answer other => answer = other ∧
        base.read base_state b.m_read_buffer_size = ok answer) (base.read base_state b.m_read_buffer_size) :=
      .same _ fun _ hread => ⟨rfl, hread⟩
    apply hanswer.bind
    rintro ⟨r, data, next⟩ _ ⟨rfl, hread⟩
    obtain ⟨hval, hlength⟩ := hbase _ _ _ _ _ hread
    have hlengthLeft : data.length ≤ a.m_read_buffer_size.toNat := by rw [hsize]; exact hlength
    have haFits := ha.size_le
    have hbFits := hb.size_le
    simp only [if_neg (by omega : ¬ a.m_read_buffer.length < data.length),
      if_neg (by omega : ¬ b.m_read_buffer.length < data.length)]
    split
    · exact .ok (.done ⟨rfl, rfl,
        ⟨[], ⟨⟨ha.spoil hlengthLeft, ha.size_pos⟩, ha.size_eq, ha.write_buffer_eq, ha.usage_eq⟩,
          ⟨⟨hb.spoil hlength, hb.size_pos⟩, hb.size_eq, hb.write_buffer_eq, hb.usage_eq⟩⟩, rfl⟩)
    · exact .ok (.cont
        ⟨⟨data, ⟨⟨ha.refill hval hlengthLeft, ha.size_pos⟩, ha.size_eq, ha.write_buffer_eq, ha.usage_eq⟩,
          ⟨⟨hb.refill hval hlength, hb.size_pos⟩, hb.size_eq, hb.write_buffer_eq, hb.usage_eq⟩⟩, rfl, rfl, rfl⟩)

theorem Alike.read {left right : BufferedStream} (h : left.Alike buffer_size right)
    (hbase : base.ReturnsAtMost) (base_state : σ) (size : UInt32) (fuel : Nat) :
    (left.read base base_state size fuel).Rel (ReadAlike buffer_size)
      (right.read base base_state size fuel) := by
  obtain ⟨unread, hleft, hright⟩ := id h
  unfold BufferedStream.read
  simp only [hleft.attached, hright.attached, not_true, if_false]
  split
  · exact .ok ⟨rfl, rfl, h, rfl⟩
  · have hstart : ReadingAlike buffer_size { self := left, base_state, remain_size := size }
        { self := right, base_state, remain_size := size } := ⟨h, rfl, rfl, rfl⟩
    exact loop_rel (fun _ _ => read_pass_rel hbase size) hstart fuel

theorem Unbuffered.write_eq {bs : BufferedStream} (h : bs.Unbuffered) (base : Stream σ) (base_state : σ)
    (data : List UInt8) :
    bs.write base base_state data = if data = [] then ok (⟨kOk, 0⟩, bs, base_state)
      else base.write base_state data >>= fun (r, base_state) => ok (r, bs, base_state) := by
  simp [write, h.attached, h.write_buffer_eq]

theorem Unbuffered.flush_eq {bs : BufferedStream} (h : bs.Unbuffered) (base : Stream σ) (base_state : σ) :
    bs.flush base base_state = base.flush base_state >>= fun base_state => ok (bs, base_state) := by
  simp [flush, flush_write_buffer, h.attached, h.usage_eq]

/-- A write to a base stream that takes everything. -/
theorem Unbuffered.write_accepted {bs : BufferedStream} (h : bs.Unbuffered)
    {sent : σ → List UInt8 → Prop} (hbase : base.Accepts sent) {base_state : σ} {bytes : List UInt8}
    (hsent : sent base_state bytes) (data : List UInt8) :
    ∃ r next, bs.write base base_state data = ok (r, bs, next) ∧ r.ret = kOk ∧ sent next (bytes ++ data) := by
  rw [h.write_eq]
  by_cases hdata : data = []
  · refine ⟨⟨kOk, 0⟩, base_state, by rw [if_pos hdata], rfl, ?_⟩
    rwa [hdata, List.append_nil]
  · obtain ⟨next, hwrite, hnext⟩ := hbase.write base_state bytes data hsent
    exact ⟨⟨kOk, data.length.toUInt32⟩, next, by rw [if_neg hdata, hwrite]; rfl, rfl, hnext⟩

end kfw.io.BufferedStream

import Kfw.Io.BufferedStream
import Kfw.Lib.Overwrite
import Kfw.Lib.Run
import Kfw.Net.Link

open exec Result kfw.net

namespace kfw.io.BufferedStream

variable {σ : Type}

/-- The calls that write to a buffered stream, or make it write. -/
inductive WriteCall where
  | write (data : List UInt8)
  | flush
  | close

/-- A buffered stream with its base stream, and the data of the writes that it
answered with `kOk`. -/
structure Writing (σ : Type) where
  bs : BufferedStream
  base_state : σ
  acknowledged : List UInt8 := []

/-- One call. -/
def Writing.call (base : Stream σ) (writing : Writing σ) : WriteCall → Exec (Writing σ)
  | .write data => do
    let (r, bs, base_state) ← writing.bs.write base writing.base_state data
    let acknowledged := if r.ret = kOk then writing.acknowledged ++ data else writing.acknowledged
    ok { bs, base_state, acknowledged }
  | .flush => do
    let (bs, base_state) ← writing.bs.flush base writing.base_state
    ok { writing with bs, base_state }
  | .close => do
    let (bs, base_state) ← writing.bs.close base writing.base_state
    ok { writing with bs, base_state }

/-- `m_write_buffer[0..m_write_buffer_usage)`. -/
def buffered (bs : BufferedStream) : List UInt8 :=
  (bs.m_write_buffer.getD []).take bs.m_write_buffer_usage.toNat

/-- An attached stream with a write buffer, whose memory is large enough and
filled up to `m_write_buffer_usage` at most. -/
structure WriteBuffered (bs : BufferedStream) (mem : List UInt8) : Prop where
  attached : bs.m_base_stream = true
  buffer_eq : bs.m_write_buffer = some mem
  size_le : bs.m_write_buffer_size.toNat ≤ mem.length
  usage_le : bs.m_write_buffer_usage.toNat ≤ bs.m_write_buffer_size.toNat

variable {base : Stream σ} {sent : σ → List UInt8} {bs : BufferedStream} {mem : List UInt8}

theorem WriteBuffered.buffered_eq (h : bs.WriteBuffered mem) :
    bs.buffered = mem.take bs.m_write_buffer_usage.toNat := by
  rw [buffered, h.buffer_eq, Option.getD_some]

theorem WriteBuffered.buffered_of_unused (h : bs.WriteBuffered mem) (husage : bs.m_write_buffer_usage = 0) :
    bs.buffered = [] := by
  rw [h.buffered_eq, husage]
  exact List.take_zero

theorem WriteBuffered.emptied (h : bs.WriteBuffered mem) : WriteBuffered { bs with m_write_buffer_usage := 0 } mem :=
  ⟨h.attached, h.buffer_eq, h.size_le, Nat.zero_le _⟩

/-- Of the answer of the base stream only the code is looked at. -/
theorem WriteBuffered.flush_write_buffer_eq (h : bs.WriteBuffered mem) (hused : bs.m_write_buffer_usage ≠ 0)
    {base_state nextState : σ} {r : RetVal UInt32} (hwrite : base.write base_state bs.buffered = ok (r, nextState)) :
    bs.flush_write_buffer base base_state =
      if is_failed r.ret then ok (r.ret, bs, nextState)
      else ok (kOk, { bs with m_write_buffer_usage := 0 }, nextState) := by
  have hsize := h.size_le
  have husage := h.usage_le
  have hfits : ¬ mem.length < bs.m_write_buffer_usage.toNat := by omega
  rw [h.buffered_eq] at hwrite
  simp [flush_write_buffer, hused, h.attached, h.buffer_eq, hfits, hwrite]

/-- Sending the write buffer moves it to the base stream, or changes nothing. -/
theorem WriteBuffered.flush_write_buffer_spec (h : bs.WriteBuffered mem) (hbase : base.AllOrNothing sent)
    (base_state : σ) :
    ∃ r next nextState, bs.flush_write_buffer base base_state = ok (r, next, nextState) ∧
      next.WriteBuffered mem ∧ next.m_write_buffer_size = bs.m_write_buffer_size ∧
      (r = kOk ∧ next.m_write_buffer_usage = 0 ∧ sent nextState = sent base_state ++ bs.buffered ∨
        is_failed r = true ∧ next = bs ∧ sent nextState = sent base_state) := by
  by_cases hempty : bs.m_write_buffer_usage = 0
  · refine ⟨kOk, bs, base_state, if_pos hempty, h, rfl, .inl ⟨rfl, hempty, ?_⟩⟩
    rw [h.buffered_of_unused hempty, List.append_nil]
  · obtain ⟨r, nextState, hwrite, hanswer⟩ := hbase.write base_state bs.buffered
    have hflush := h.flush_write_buffer_eq hempty hwrite
    rcases hanswer with ⟨hr, hsent⟩ | ⟨hr, hsent⟩
    · rw [hr, if_neg (by simp)] at hflush
      exact ⟨kOk, _, nextState, hflush, h.emptied, rfl, .inl ⟨rfl, rfl, hsent⟩⟩
    · rw [if_pos hr] at hflush
      exact ⟨r.ret, bs, nextState, hflush, h, rfl, .inr ⟨hr, rfl, hsent⟩⟩

/-- Data that fits is put behind what is buffered. -/
theorem WriteBuffered.fill_spec (h : bs.WriteBuffered mem) {data : List UInt8}
    (hfits : bs.m_write_buffer_usage.toNat + data.length ≤ bs.m_write_buffer_size.toNat) :
    ∃ next nextMem, bs.fill_write_buffer mem data = ok next ∧ next.WriteBuffered nextMem ∧
      next.buffered = bs.buffered ++ data := by
  have hsize := h.size_le
  have hbound := bs.m_write_buffer_size.toNat_lt
  have husage : (bs.m_write_buffer_usage + data.length.toUInt32).toNat =
      bs.m_write_buffer_usage.toNat + data.length := by
    rw [UInt32.toNat_add]
    change (_ + data.length % 2 ^ 32) % 2 ^ 32 = _
    omega
  have hroom : bs.m_write_buffer_usage.toNat + data.length ≤ mem.length := by omega
  obtain ⟨nextMem, hnextMem⟩ : ∃ nextMem, nextMem = mem.take bs.m_write_buffer_usage.toNat ++
    (data ++ mem.drop (bs.m_write_buffer_usage.toNat + data.length)) := ⟨_, rfl⟩
  refine ⟨{ bs with
    m_write_buffer := some nextMem
    m_write_buffer_usage := bs.m_write_buffer_usage + data.length.toUInt32 }, nextMem, ?_,
    ⟨h.attached, rfl, ?_, ?_⟩, ?_⟩
  · rw [hnextMem]
    exact if_neg (by omega)
  · rw [hnextMem, length_overwrite hroom]
    exact hsize
  · simp only [husage]
    exact hfits
  · rw [h.buffered_eq]
    simp only [buffered, Option.getD_some, husage, hnextMem]
    exact take_overwrite hroom

theorem WriteBuffered.free_eq (h : bs.WriteBuffered mem) :
    (bs.m_write_buffer_size - bs.m_write_buffer_usage).toNat =
      bs.m_write_buffer_size.toNat - bs.m_write_buffer_usage.toNat :=
  UInt32.toNat_sub_of_le _ _ (UInt32.le_iff_toNat_le.mpr h.usage_le)

/-- A write that fits behind what is buffered. -/
theorem WriteBuffered.write_fits (h : bs.WriteBuffered mem) (base : Stream σ) (base_state : σ) {data : List UInt8}
    (hdata : data ≠ []) (hfits : ¬ bs.m_write_buffer_size.toNat - bs.m_write_buffer_usage.toNat < data.length) :
    ∃ next nextMem, bs.write base base_state data = ok (⟨kOk, data.length.toUInt32⟩, next, base_state) ∧
      next.WriteBuffered nextMem ∧ next.buffered = bs.buffered ++ data := by
  have husage := h.usage_le
  have hsmall : ¬ data.length > bs.m_write_buffer_size.toNat := by omega
  have hroom := hfits
  rw [← h.free_eq] at hroom
  obtain ⟨next, nextMem, hfill, hnext, hbuffered⟩ := h.fill_spec (by omega : _ + data.length ≤ _)
  refine ⟨next, nextMem, ?_, hnext, hbuffered⟩
  simp [write, h.attached, hdata, h.buffer_eq, hsmall, hroom, hfill]

section Past

variable {base_state flushedState : σ} {data : List UInt8} {flushed : BufferedStream}

/-- A write that does not fit, when the buffer cannot be sent. -/
theorem WriteBuffered.write_refused (h : bs.WriteBuffered mem) (hdata : data ≠ [])
    (hpast : bs.m_write_buffer_size.toNat - bs.m_write_buffer_usage.toNat < data.length) {r : ret_t}
    (hflush : bs.flush_write_buffer base base_state = ok (r, flushed, flushedState)) (hr : is_failed r = true) :
    ∃ code, is_failed code = true ∧ bs.write base base_state data = ok (⟨code, 0⟩, flushed, flushedState) := by
  by_cases hlarge : data.length > bs.m_write_buffer_size.toNat
  · refine ⟨r, hr, ?_⟩
    simp [write, h.attached, hdata, h.buffer_eq, hlarge, hflush, hr]
  · rw [← h.free_eq] at hpast
    refine ⟨kEDisposed, rfl, ?_⟩
    simp [write, h.attached, hdata, h.buffer_eq, hlarge, hpast, hflush, hr]

/-- A write that does not fit, when the buffer was sent: the data is given to the base
stream, or it is buffered if the buffer is large enough for it. -/
theorem WriteBuffered.write_flushed (h : bs.WriteBuffered mem) (hdata : data ≠ [])
    (hpast : bs.m_write_buffer_size.toNat - bs.m_write_buffer_usage.toNat < data.length)
    (hflush : bs.flush_write_buffer base base_state = ok (kOk, flushed, flushedState))
    (hflushed : flushed.WriteBuffered mem) (hsize : flushed.m_write_buffer_size = bs.m_write_buffer_size)
    (husage : flushed.m_write_buffer_usage = 0) :
    bs.write base base_state data =
        (base.write flushedState data >>= fun (answer, nextState) => ok (answer, flushed, nextState)) ∨
      data.length ≤ bs.m_write_buffer_size.toNat ∧ ∃ next nextMem,
        bs.write base base_state data = ok (⟨kOk, data.length.toUInt32⟩, next, flushedState) ∧
        next.WriteBuffered nextMem ∧ next.buffered = data := by
  by_cases hlarge : data.length > bs.m_write_buffer_size.toNat
  · left
    simp [write, h.attached, hdata, h.buffer_eq, hlarge, hflush]
  · have hfits : flushed.m_write_buffer_usage.toNat + data.length ≤ flushed.m_write_buffer_size.toNat := by
      rw [husage, hsize, UInt32.toNat_zero]
      omega
    obtain ⟨next, nextMem, hfill, hnext, hbuffered⟩ := hflushed.fill_spec hfits
    rw [hflushed.buffered_of_unused husage, List.nil_append] at hbuffered
    rw [← h.free_eq] at hpast
    refine .inr ⟨Nat.le_of_not_lt hlarge, next, nextMem, ?_, hnext, hbuffered⟩
    simp [write, h.attached, hdata, h.buffer_eq, hlarge, hpast, hflush, hfill]

end Past

/-- A write that is answered with `kOk` is taken, behind all that was taken
before, and one that fails leaves that as it is. -/
theorem WriteBuffered.write_spec (h : bs.WriteBuffered mem) (hbase : base.AllOrNothing sent)
    (base_state : σ) (data : List UInt8) :
    ∃ r next nextState nextMem, bs.write base base_state data = ok (r, next, nextState) ∧
      next.WriteBuffered nextMem ∧
      sent nextState ++ next.buffered =
        sent base_state ++ bs.buffered ++ if r.ret = kOk then data else [] := by
  have hfailed : ∀ r : ret_t, is_failed r = true → r ≠ kOk := by
    rintro _ hr rfl
    exact absurd hr (by simp)
  by_cases hdata : data = []
  · refine ⟨⟨kOk, 0⟩, bs, base_state, mem, ?_, h, by simp [hdata]⟩
    simp [write, h.attached, hdata]
  by_cases hpast : bs.m_write_buffer_size.toNat - bs.m_write_buffer_usage.toNat < data.length
  · obtain ⟨r, flushed, flushedState, hflush, hflushed, hsize, ⟨rfl, husage, hsent⟩ | ⟨hr, rfl, hsent⟩⟩ :=
      h.flush_write_buffer_spec hbase base_state
    · rcases h.write_flushed hdata hpast hflush hflushed hsize husage with
        hthrough | ⟨-, next, nextMem, hwrite, hnext, hbuffered⟩
      · obtain ⟨answer, nextState, hwrite, hanswer⟩ := hbase.write flushedState data
        refine ⟨answer, flushed, nextState, mem, by rw [hthrough, hwrite, bind_ok], hflushed, ?_⟩
        rw [hflushed.buffered_of_unused husage, List.append_nil]
        rcases hanswer with ⟨hr, hnext⟩ | ⟨hr, hnext⟩
        · rw [hnext, hsent, if_pos hr]
        · rw [hnext, hsent, if_neg (hfailed _ hr), List.append_nil]
      · refine ⟨_, next, flushedState, nextMem, hwrite, hnext, ?_⟩
        rw [hbuffered, hsent, if_pos rfl]
    · obtain ⟨code, hcode, hwrite⟩ := h.write_refused hdata hpast hflush hr
      refine ⟨_, flushed, flushedState, mem, hwrite, h, ?_⟩
      rw [hsent, if_neg (hfailed _ hcode), List.append_nil]
  · obtain ⟨next, nextMem, hwrite, hnext, hbuffered⟩ := h.write_fits base base_state hdata hpast
    refine ⟨_, next, base_state, nextMem, hwrite, hnext, ?_⟩
    rw [hbuffered, if_pos rfl, List.append_assoc]

theorem WriteBuffered.flush_spec (h : bs.WriteBuffered mem) (hbase : base.AllOrNothing sent)
    (base_state : σ) :
    ∃ next nextState, bs.flush base base_state = ok (next, nextState) ∧ next.WriteBuffered mem ∧
      sent nextState ++ next.buffered = sent base_state ++ bs.buffered := by
  obtain ⟨r, flushed, flushedState, hflush, hflushed, hsize, hanswer⟩ :=
    h.flush_write_buffer_spec hbase base_state
  obtain ⟨nextState, hbaseFlush, hsent⟩ := hbase.flush flushedState
  refine ⟨flushed, nextState, ?_, hflushed, ?_⟩
  · simp [flush, hflush, hflushed.attached, hbaseFlush]
  · rw [hsent]
    rcases hanswer with ⟨_, husage, hnext⟩ | ⟨_, rfl, hnext⟩
    · rw [hflushed.buffered_of_unused husage, hnext, List.append_nil]
    · rw [hnext]

/-- What the base stream has taken, and then what is buffered, is what it had
taken at first and then the data of the acknowledged writes. -/
structure Writing.Accounted (sent : σ → List UInt8) (before : List UInt8) (writing : Writing σ) : Prop where
  buffer : ∃ mem, writing.bs.WriteBuffered mem
  bytes : sent writing.base_state ++ writing.bs.buffered = before ++ writing.acknowledged

theorem Writing.Accounted.call {writing : Writing σ} {before : List UInt8}
    (h : writing.Accounted sent before) (hbase : base.AllOrNothing sent) (action : WriteCall) :
    ∃ next, writing.call base action = ok next ∧ next.Accounted sent before := by
  obtain ⟨⟨mem, hbuffer⟩, hbytes⟩ := h
  cases action with
  | write data =>
    obtain ⟨r, next, nextState, nextMem, hwrite, hnext, hsent⟩ := hbuffer.write_spec hbase writing.base_state data
    refine ⟨{
      bs := next
      base_state := nextState
      acknowledged := if r.ret = kOk then writing.acknowledged ++ data else writing.acknowledged },
      by simp only [Writing.call, hwrite, bind_ok], ⟨nextMem, hnext⟩, ?_⟩
    simp only [hsent, hbytes]
    split
    · exact List.append_assoc _ _ _
    · exact List.append_nil _
  | flush =>
    obtain ⟨next, nextState, hflush, hnext, hsent⟩ := hbuffer.flush_spec hbase writing.base_state
    exact ⟨{ writing with bs := next, base_state := nextState },
      by simp only [Writing.call, hflush, bind_ok], ⟨mem, hnext⟩, hsent.trans hbytes⟩
  | close =>
    obtain ⟨next, nextState, hflush, hnext, hsent⟩ := hbuffer.flush_spec hbase writing.base_state
    exact ⟨{ writing with bs := next, base_state := nextState },
      by simp only [Writing.call, BufferedStream.close, hflush, bind_ok], ⟨mem, hnext⟩, hsent.trans hbytes⟩

/-- The same over a run; every call comes back. -/
theorem Writing.Accounted.calls {writing : Writing σ} {before : List UInt8}
    (h : writing.Accounted sent before) (hbase : base.AllOrNothing sent) (actions : List WriteCall) :
    ∃ last, steps (Writing.call base) writing actions = ok last ∧ last.Accounted sent before :=
  steps_total (Writing.Accounted sent before) (fun _ action h => h.call hbase action) h actions

/-- Buffered writing loses, repeats and reorders nothing: after any calls on a
stream with a write buffer of any size, what its base stream has taken since and
then what is buffered is the data of the acknowledged writes, and the buffer is
not filled beyond its size. -/
theorem acknowledged_writes_accounted (hbase : base.AllOrNothing sent) (base_state : σ)
    (read_buffer : List UInt8) (read_buffer_size : UInt32) {write_buffer : List UInt8}
    {write_buffer_size : UInt32} (hmemory : write_buffer_size.toNat ≤ write_buffer.length)
    (actions : List WriteCall) :
    ∃ last, steps (Writing.call base)
        { bs := (init {} read_buffer read_buffer_size (some write_buffer) write_buffer_size).2, base_state }
        actions = ok last ∧
      sent last.base_state ++ last.bs.buffered = sent base_state ++ last.acknowledged ∧
      last.bs.m_write_buffer_usage ≤ last.bs.m_write_buffer_size := by
  have hstart : Writing.Accounted sent (sent base_state)
      { bs := (init {} read_buffer read_buffer_size (some write_buffer) write_buffer_size).2, base_state } :=
    ⟨⟨write_buffer, rfl, rfl, hmemory, Nat.zero_le _⟩, rfl⟩
  obtain ⟨last, hsteps, ⟨mem, hbuffer⟩, hbytes⟩ := hstart.calls hbase actions
  exact ⟨last, hsteps, hbytes, UInt32.le_iff_toNat_le.mpr hbuffer.usage_le⟩

/-- A buffer of two bytes over a connection that refuses the first write: the
write of `3` fails, and the bytes before it are sent later. -/
theorem acknowledged_writes_accounted_refused :
    ∃ last, steps (Writing.call Link.stream) {
        bs := (init {} [] 0 (some [0, 0]) 2).2
        base_state := { wire := { segments := [] }, answers := fun k => if k = 0 then -1 else ERR_OK } }
        [.write [1, 2], .write [3], .flush, .write [4, 5, 6], .close] = ok last ∧
      accepted last.base_state.log ++ last.bs.buffered = accepted [] ++ last.acknowledged ∧
      last.bs.m_write_buffer_usage ≤ last.bs.m_write_buffer_size :=
  acknowledged_writes_accounted Link.stream_allOrNothing _ [] 0 (by decide) _

end kfw.io.BufferedStream

import Kfw.Io.BufferedStream.Acknowledged

open exec Result

namespace kfw.io

variable {σ : Type}

/-- A stream that may take a part of a write only; `flush` takes nothing. -/
structure Stream.TakesPart (stream : Stream σ) (accepted : σ → List UInt8) : Prop where
  write : stream.SendsPartly accepted
  flush : ∀ state, ∃ next, stream.flush state = ok next ∧ accepted next = accepted state

namespace BufferedStream

/-- A buffered stream with its base stream, and the bytes that its writes reported as
written. -/
structure Reporting (σ : Type) where
  bs : BufferedStream
  base_state : σ
  reported : List UInt8 := []

/-- One call. -/
def Reporting.call (base : Stream σ) (reporting : Reporting σ) : WriteCall → Exec (Reporting σ)
  | .write data => do
    let (r, bs, base_state) ← reporting.bs.write base reporting.base_state data
    ok { bs, base_state, reported := reporting.reported ++ data.take r.val.toNat }
  | .flush => do
    let (bs, base_state) ← reporting.bs.flush base reporting.base_state
    ok { reporting with bs, base_state }
  | .close => do
    let (bs, base_state) ← reporting.bs.close base reporting.base_state
    ok { reporting with bs, base_state }

/-- The calls that send the write buffer: `flush` and `close`, and a write that does
not fit behind what is buffered. -/
def Flushes (bs : BufferedStream) : WriteCall → Prop
  | .write data => bs.m_write_buffer_size.toNat - bs.m_write_buffer_usage.toNat < data.length
  | .flush => True
  | .close => True

/-- The base stream, given the write buffer, takes the whole of it or fails. -/
def TakesBuffer (base : Stream σ) (bs : BufferedStream) (base_state : σ) : Prop :=
  ∀ r next, bs.buffered ≠ [] → base.write base_state bs.buffered = ok (r, next) → is_failed r.ret = false →
    r.val.toNat = bs.buffered.length

/-- If the call sends the write buffer, the base stream takes the whole of it or fails. -/
def Reporting.Whole (base : Stream σ) (reporting : Reporting σ) (action : WriteCall) : Prop :=
  reporting.bs.Flushes action → TakesBuffer base reporting.bs reporting.base_state

variable {base : Stream σ} {accepted : σ → List UInt8} {bs : BufferedStream} {mem : List UInt8}

/-- Sending the write buffer keeps what the base stream takes of it, or all of it if the
base stream fails; what it does not take is dropped. -/
theorem WriteBuffered.flush_write_buffer_part (h : bs.WriteBuffered mem) (hbase : base.SendsPartly accepted)
    (base_state : σ) :
    ∃ r next nextState kept, bs.flush_write_buffer base base_state = ok (r, next, nextState) ∧
      next.WriteBuffered mem ∧ next.m_write_buffer_size = bs.m_write_buffer_size ∧
      kept <+: bs.buffered ∧ (kept = bs.buffered ↔ TakesBuffer base bs base_state) ∧
      accepted nextState ++ next.buffered = accepted base_state ++ kept ∧
      (r = kOk ∧ next.m_write_buffer_usage = 0 ∨ is_failed r = true) := by
  by_cases hempty : bs.m_write_buffer_usage = 0
  · have hnone := h.buffered_of_unused hempty
    refine ⟨kOk, bs, base_state, bs.buffered, if_pos hempty, h, rfl, List.prefix_rfl, ?_, rfl, .inl ⟨rfl, hempty⟩⟩
    exact iff_of_true rfl fun _ _ hsome => absurd hnone hsome
  · have hsize := h.size_le
    have husage := h.usage_le
    have hlength : bs.buffered.length = bs.m_write_buffer_usage.toNat := by
      rw [h.buffered_eq, List.length_take]
      omega
    have hsome : bs.buffered ≠ [] := by
      rw [← List.length_pos_iff, hlength]
      exact Nat.pos_of_ne_zero fun hzero => hempty (UInt32.toNat_inj.mp hzero)
    obtain ⟨r, nextState, hwrite, hanswer⟩ := hbase base_state bs.buffered hsome
    have hflush := h.flush_write_buffer_eq hempty hwrite
    have htakes : TakesBuffer base bs base_state ↔
        (is_failed r.ret = false → r.val.toNat = bs.buffered.length) := by
      constructor
      · exact fun htakes => htakes r nextState hsome hwrite
      · intro hwhole r' next' _ hwrite' hr'
        rw [hwrite, ok.injEq, Prod.mk.injEq] at hwrite'
        obtain ⟨rfl, -⟩ := hwrite'
        exact hwhole hr'
    rw [htakes]
    rcases hanswer with ⟨hr, -, hle, haccepted⟩ | ⟨hr, -, haccepted⟩
    · rw [if_neg (Bool.eq_false_iff.mp hr)] at hflush
      refine ⟨kOk, _, nextState, bs.buffered.take r.val.toNat, hflush, h.emptied, rfl, List.take_prefix _ _, ?_, ?_,
        .inl ⟨rfl, rfl⟩⟩
      · rw [List.take_eq_self_iff]
        exact ⟨fun hall _ => Nat.le_antisymm hle hall, fun hall => (hall hr).ge⟩
      · rw [h.emptied.buffered_of_unused rfl, List.append_nil, haccepted]
    · rw [if_pos hr] at hflush
      refine ⟨r.ret, bs, nextState, bs.buffered, hflush, h, rfl, List.prefix_rfl, ?_, by rw [haccepted], .inr hr⟩
      exact iff_of_true rfl fun hnot => by rw [hr] at hnot; cases hnot

/-- A write keeps what was buffered, or what the base stream takes of it if the buffer is
sent, and adds the bytes that it reports. -/
theorem WriteBuffered.write_part (h : bs.WriteBuffered mem) (hbase : base.SendsPartly accepted)
    (base_state : σ) (data : List UInt8) :
    ∃ r next nextState nextMem kept, bs.write base base_state data = ok (r, next, nextState) ∧
      next.WriteBuffered nextMem ∧ kept <+: bs.buffered ∧
      (kept = bs.buffered ↔ (bs.Flushes (.write data) → TakesBuffer base bs base_state)) ∧
      accepted nextState ++ next.buffered = accepted base_state ++ kept ++ data.take r.val.toNat := by
  have hcounted : data.length ≤ bs.m_write_buffer_size.toNat → data.take data.length.toUInt32.toNat = data := by
    intro hle
    rw [List.take_eq_self_iff]
    exact (Nat.mod_eq_of_lt (Nat.lt_of_le_of_lt hle bs.m_write_buffer_size.toNat_lt)).ge
  by_cases hdata : data = []
  · refine ⟨⟨kOk, 0⟩, bs, base_state, mem, bs.buffered, by simp [write, h.attached, hdata], h, List.prefix_rfl, ?_, ?_⟩
    · refine iff_of_true rfl fun hflushes => ?_
      rw [Flushes, hdata] at hflushes
      cases hflushes
    · simp [hdata]
  by_cases hflushes : bs.Flushes (.write data)
  · obtain ⟨r, flushed, flushedState, kept, hflush, hflushed, hsize, hkept, hwhole, hsent, hanswer⟩ :=
      h.flush_write_buffer_part hbase base_state
    have hwhole : kept = bs.buffered ↔ (bs.Flushes (.write data) → TakesBuffer base bs base_state) := by
      rw [hwhole, forall_prop_of_true hflushes]
    rcases hanswer with ⟨rfl, husage⟩ | hr
    · have hnone := hflushed.buffered_of_unused husage
      rw [hnone, List.append_nil] at hsent
      rcases h.write_flushed hdata hflushes hflush hflushed hsize husage with
        hthrough | ⟨hle, next, nextMem, hwrite, hnext, hbuffered⟩
      · obtain ⟨answer, nextState, hwrite, hanswer⟩ := hbase flushedState data hdata
        refine ⟨answer, flushed, nextState, mem, kept, by rw [hthrough, hwrite, bind_ok], hflushed, hkept, hwhole, ?_⟩
        rw [hnone, List.append_nil]
        rcases hanswer with ⟨-, -, -, hnext⟩ | ⟨-, hval, hnext⟩
        · rw [hnext, hsent]
        · rw [hnext, hsent, hval, UInt32.toNat_zero, List.take_zero, List.append_nil]
      · refine ⟨_, next, flushedState, nextMem, kept, hwrite, hnext, hkept, hwhole, ?_⟩
        rw [hbuffered, hcounted hle, hsent]
    · obtain ⟨code, -, hwrite⟩ := h.write_refused hdata hflushes hflush hr
      refine ⟨_, flushed, flushedState, mem, kept, hwrite, hflushed, hkept, hwhole, ?_⟩
      rw [hsent, UInt32.toNat_zero, List.take_zero, List.append_nil]
  · obtain ⟨next, nextMem, hwrite, hnext, hbuffered⟩ := h.write_fits base base_state hdata hflushes
    refine ⟨_, next, base_state, nextMem, bs.buffered, hwrite, hnext, List.prefix_rfl, ?_, ?_⟩
    · exact iff_of_true rfl fun hsends => absurd hsends hflushes
    · have hle : data.length ≤ bs.m_write_buffer_size.toNat := Nat.le_trans (Nat.not_lt.mp hflushes) (Nat.sub_le _ _)
      rw [hbuffered, hcounted hle, List.append_assoc]

theorem WriteBuffered.flush_part (h : bs.WriteBuffered mem) (hbase : base.TakesPart accepted) (base_state : σ) :
    ∃ next nextState kept, bs.flush base base_state = ok (next, nextState) ∧ next.WriteBuffered mem ∧
      kept <+: bs.buffered ∧ (kept = bs.buffered ↔ TakesBuffer base bs base_state) ∧
      accepted nextState ++ next.buffered = accepted base_state ++ kept := by
  obtain ⟨r, flushed, flushedState, kept, hflush, hflushed, -, hkept, hwhole, hsent, -⟩ :=
    h.flush_write_buffer_part hbase.write base_state
  obtain ⟨nextState, hbaseFlush, hnext⟩ := hbase.flush flushedState
  refine ⟨flushed, nextState, kept, ?_, hflushed, hkept, hwhole, by rw [hnext, hsent]⟩
  simp [flush, hflush, hflushed.attached, hbaseFlush]

/-- What one call does: `kept` of the buffered bytes are sent or still buffered, and
`added` is what it reports. -/
theorem Reporting.call_part {reporting : Reporting σ} (h : reporting.bs.WriteBuffered mem)
    (hbase : base.TakesPart accepted) (action : WriteCall) :
    ∃ next nextMem kept added, reporting.call base action = ok next ∧ next.bs.WriteBuffered nextMem ∧
      kept <+: reporting.bs.buffered ∧ (kept = reporting.bs.buffered ↔ reporting.Whole base action) ∧
      accepted next.base_state ++ next.bs.buffered = accepted reporting.base_state ++ kept ++ added ∧
      next.reported = reporting.reported ++ added := by
  -- `close` is `flush`
  have hflush : ∃ next nextMem kept added, reporting.call base .flush = ok next ∧ next.bs.WriteBuffered nextMem ∧
      kept <+: reporting.bs.buffered ∧ (kept = reporting.bs.buffered ↔ reporting.Whole base .flush) ∧
      accepted next.base_state ++ next.bs.buffered = accepted reporting.base_state ++ kept ++ added ∧
      next.reported = reporting.reported ++ added := by
    obtain ⟨next, nextState, kept, hflush, hnext, hkept, hwhole, hsent⟩ := h.flush_part hbase reporting.base_state
    have hflushes : reporting.bs.Flushes .flush := trivial
    refine ⟨⟨next, nextState, reporting.reported⟩, mem, kept, [], ?_, hnext, hkept, ?_, ?_, ?_⟩
    · simp only [Reporting.call, hflush, bind_ok]
    · rw [hwhole, Reporting.Whole, forall_prop_of_true hflushes]
    · rw [hsent, List.append_nil]
    · rw [List.append_nil]
  cases action with
  | write data =>
    obtain ⟨r, next, nextState, nextMem, kept, hwrite, hnext, hkept, hwhole, hsent⟩ :=
      h.write_part hbase.write reporting.base_state data
    refine ⟨⟨next, nextState, reporting.reported ++ data.take r.val.toNat⟩, nextMem, kept, _, ?_, hnext, hkept, hwhole,
      hsent, rfl⟩
    simp only [Reporting.call, hwrite, bind_ok]
  | flush => exact hflush
  | close => exact hflush

/-- What the base stream has taken, and then what is buffered, is what it had taken at
first and then the reported bytes. -/
structure Reporting.Accounted (accepted : σ → List UInt8) (before : List UInt8) (reporting : Reporting σ) : Prop where
  buffer : ∃ mem, reporting.bs.WriteBuffered mem
  bytes : accepted reporting.base_state ++ reporting.bs.buffered = before ++ reporting.reported

/-- Fewer bytes are taken or buffered than were reported. -/
structure Reporting.Short (accepted : σ → List UInt8) (before : List UInt8) (reporting : Reporting σ) : Prop where
  buffer : ∃ mem, reporting.bs.WriteBuffered mem
  bytes : (accepted reporting.base_state ++ reporting.bs.buffered).length < (before ++ reporting.reported).length

theorem Reporting.Accounted.call {reporting : Reporting σ} {before : List UInt8}
    (h : reporting.Accounted accepted before) (hbase : base.TakesPart accepted) (action : WriteCall) :
    ∃ next, reporting.call base action = ok next ∧
      (reporting.Whole base action ∧ next.Accounted accepted before ∨
        ¬ reporting.Whole base action ∧ next.Short accepted before) := by
  obtain ⟨⟨mem, hbuffer⟩, hbytes⟩ := h
  obtain ⟨next, nextMem, kept, added, hcall, hnext, hkept, hwhole, hsent, hreported⟩ :=
    Reporting.call_part hbuffer hbase action
  refine ⟨next, hcall, ?_⟩
  rw [← hwhole]
  by_cases hall : kept = reporting.bs.buffered
  · refine .inl ⟨hall, ⟨nextMem, hnext⟩, ?_⟩
    rw [hsent, hreported, hall, hbytes, List.append_assoc]
  · refine .inr ⟨hall, ⟨nextMem, hnext⟩, ?_⟩
    have hless : kept.length < reporting.bs.buffered.length :=
      Nat.lt_of_le_of_ne hkept.length_le fun hsame => hall (hkept.eq_of_length hsame)
    have hlength := congrArg List.length hbytes
    rw [hsent, hreported]
    simp only [List.length_append] at hlength ⊢
    omega

theorem Reporting.Short.call {reporting : Reporting σ} {before : List UInt8}
    (h : reporting.Short accepted before) (hbase : base.TakesPart accepted) (action : WriteCall) :
    ∃ next, reporting.call base action = ok next ∧ next.Short accepted before := by
  obtain ⟨⟨mem, hbuffer⟩, hbytes⟩ := h
  obtain ⟨next, nextMem, kept, added, hcall, hnext, hkept, -, hsent, hreported⟩ :=
    Reporting.call_part hbuffer hbase action
  refine ⟨next, hcall, ⟨nextMem, hnext⟩, ?_⟩
  have hless := hkept.length_le
  rw [hsent, hreported]
  simp only [List.length_append] at hbytes ⊢
  omega

/-- After any calls on a stream with a write buffer, what its base stream has taken since
and then what is buffered are the bytes that were reported as written, if and only if
the base stream took the whole write buffer each time that it was sent. -/
theorem short_writes_kept_iff (hbase : base.TakesPart accepted) (base_state : σ)
    (read_buffer : List UInt8) (read_buffer_size : UInt32) {write_buffer : List UInt8}
    {write_buffer_size : UInt32} (hmemory : write_buffer_size.toNat ≤ write_buffer.length)
    (actions : List WriteCall) :
    let start : Reporting σ :=
      { bs := (init {} read_buffer read_buffer_size (some write_buffer) write_buffer_size).2, base_state }
    ∃ last, steps (Reporting.call base) start actions = ok last ∧
      (accepted last.base_state ++ last.bs.buffered = accepted base_state ++ last.reported ↔
        Along (Reporting.call base) (Reporting.Whole base) start actions) := by
  intro start
  have hstart : start.Accounted accepted (accepted base_state) :=
    ⟨⟨write_buffer, rfl, rfl, hmemory, Nat.zero_le _⟩, rfl⟩
  obtain ⟨last, hsteps, hanswer⟩ := steps_along_or_lost (Reporting.Accounted accepted (accepted base_state))
    (Reporting.Short accepted (accepted base_state)) (fun _ action h => h.call hbase action)
    (fun _ action h => h.call hbase action) hstart actions
  refine ⟨last, hsteps, ?_⟩
  rcases hanswer with ⟨hall, haccounted⟩ | ⟨hnot, hshort⟩
  · exact iff_of_true haccounted.bytes hall
  · refine iff_of_false (fun hbytes => ?_) hnot
    exact absurd hshort.bytes (by rw [hbytes]; exact Nat.lt_irrefl _)

/-- A connection that takes two bytes of a write at most. -/
def trickle : Stream (List UInt8) where
  read taken _ := ok (⟨kETimeout, 0⟩, [], taken)
  write taken data := ok (⟨kOk, (data.take 2).length.toUInt32⟩, taken ++ data.take 2)
  flush := ok

theorem trickle_takesPart : trickle.TakesPart id := by
  refine ⟨fun taken data hdata => ?_, fun taken => ⟨taken, rfl, rfl⟩⟩
  have hpos : 0 < data.length := List.length_pos_iff.mpr hdata
  have hlength : (data.take 2).length = min 2 data.length := List.length_take
  have hval : (data.take 2).length.toUInt32.toNat = (data.take 2).length :=
    Nat.mod_eq_of_lt (by omega)
  refine ⟨_, _, rfl, .inl ⟨rfl, ?_, ?_, ?_⟩⟩
  · rw [hval]
    omega
  · rw [hval]
    omega
  · rw [hval, hlength, ← List.take_eq_take_min]
    rfl

/-- Two bytes are sent whole. -/
theorem short_writes_kept_two :
    ∃ last, steps (Reporting.call trickle) ⟨(init {} [] 0 (some [0, 0, 0, 0]) 4).2, [], []⟩
        [.write [1, 2], .flush] = ok last ∧
      last.base_state ++ last.bs.buffered = [] ++ last.reported := by
  obtain ⟨last, hsteps, hiff⟩ := short_writes_kept_iff trickle_takesPart [] [] 0
    (by decide : (4 : UInt32).toNat ≤ [(0 : UInt8), 0, 0, 0].length) [.write [1, 2], .flush]
  refine ⟨last, hsteps, hiff.mpr ?_⟩
  rw [along_cons_of_ok rfl, along_cons_of_ok rfl]
  refine ⟨fun hflushes => absurd (show 4 < 2 from hflushes) (by decide), fun _ r next _ hwrite _ => ?_, trivial⟩
  cases hwrite
  rfl

/-- Three bytes are reported as written, but one of them is dropped when they are sent. -/
theorem short_write_dropped :
    ∃ last, steps (Reporting.call trickle) ⟨(init {} [] 0 (some [0, 0, 0, 0]) 4).2, [], []⟩
        [.write [1, 2, 3], .flush] = ok last ∧
      last.base_state ++ last.bs.buffered = [1, 2] ∧ last.reported = [1, 2, 3] :=
  ⟨_, rfl, rfl, rfl⟩

end BufferedStream

end kfw.io

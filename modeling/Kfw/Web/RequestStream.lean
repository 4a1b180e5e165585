import Kfw.Io.Stream
import Kfw.Lib.Run

open exec Result kfw.io

namespace kfw.web

/-- The body of a request as a stream over the connection's stream, whose state
is passed along; `m_base_stream` says whether one was attached. -/
structure HttpListenerRequestStream where
  m_base_stream : Bool := false
  m_content_length : UInt32 := 0
  m_read_pos : UInt32 := 0

namespace HttpListenerRequestStream

variable {σ : Type}

def attach (content_length : UInt32) : HttpListenerRequestStream :=
  { m_base_stream := true, m_content_length := content_length, m_read_pos := 0 }

def read (base : Stream σ) (self : HttpListenerRequestStream) (base_state : σ) (size : UInt32) :
    Exec (RetVal UInt32 × List UInt8 × HttpListenerRequestStream × σ) :=
  if ¬ self.m_base_stream then fail .invalid_access
  else do
    let remain_size := self.m_content_length - self.m_read_pos
    -- read_size is clamped to the window, but the base stream is asked for size
    let _read_size := if size > remain_size then remain_size else size
    let (r, data, base_state) ← base.read base_state size
    if is_failed r.ret then ok (r, data, self, base_state)
    else ok (r, data, { self with m_read_pos := self.m_read_pos + r.val }, base_state)

def write (_data : List UInt8) : RetVal UInt32 := ⟨kENotSupported, 0⟩

end HttpListenerRequestStream

/-- A request stream being read, with its base stream and the number of bytes
its reads have taken from it. -/
structure BodyReads (σ : Type) where
  stream : HttpListenerRequestStream
  base_state : σ
  taken : Nat := 0

namespace BodyReads

variable {σ : Type} {base : Stream σ} {content_length : UInt32} {state next : BodyReads σ}

def step (base : Stream σ) (state : BodyReads σ) (size : UInt32) : Exec (BodyReads σ) := do
  let (_, data, stream, base_state) ← state.stream.read base state.base_state size
  ok { stream, base_state, taken := state.taken + data.length }

/-- Neither the bytes taken nor the read position have passed the window. -/
def InWindow (content_length : UInt32) (state : BodyReads σ) : Prop :=
  state.taken ≤ content_length.toNat ∧
    state.stream.m_read_pos.toNat ≤ content_length.toNat

/-- A read that stays in the window without the clamp: it asks for no more than the
rest, or the base stream gives no more than that. -/
def WithinRest (base : Stream σ) (content_length : UInt32) (state : BodyReads σ) (size : UInt32) : Prop :=
  size.toNat ≤ content_length.toNat - state.taken ∨
    ∀ r data base_state, base.read state.base_state size = ok (r, data, base_state) →
      data.length ≤ content_length.toNat - state.taken

/-- The stream is attached, all bytes it took are of the body, and the position does
not run ahead of them. -/
structure OfBody (content_length : UInt32) (state : BodyReads σ) : Prop where
  attached : state.stream.m_base_stream = true
  pos_le : state.stream.m_read_pos.toNat ≤ state.taken
  taken_le : state.taken ≤ content_length.toNat

theorem OfBody.attach (content_length : UInt32) (base_state : σ) :
    OfBody content_length { stream := .attach content_length, base_state } where
  attached := rfl
  pos_le := Nat.le_refl 0
  taken_le := Nat.zero_le _

theorem OfBody.inWindow (h : OfBody content_length state) : InWindow content_length state :=
  ⟨h.taken_le, h.pos_le.trans h.taken_le⟩

/-- A read takes what the base stream gives, and the position stays behind it. -/
theorem OfBody.step_eq (hbase : base.ReturnsAtMost) (h : OfBody content_length state) {size : UInt32}
    {r : RetVal UInt32} {data : List UInt8} {base_state : σ}
    (hread : base.read state.base_state size = ok (r, data, base_state)) :
    ∃ stream : HttpListenerRequestStream, stream.m_base_stream = true ∧
      stream.m_read_pos.toNat ≤ state.taken + data.length ∧
      state.step base size = ok { stream, base_state, taken := state.taken + data.length } := by
  have hval := (hbase _ _ _ _ _ hread).1
  cases hfailed : is_failed r.ret with
  | true =>
    refine ⟨state.stream, h.attached, h.pos_le.trans (Nat.le_add_right _ _), ?_⟩
    simp [step, HttpListenerRequestStream.read, h.attached, hread, hfailed]
  | false =>
    refine ⟨{ state.stream with m_read_pos := state.stream.m_read_pos + r.val }, h.attached, ?_, ?_⟩
    · calc (state.stream.m_read_pos + r.val).toNat
          ≤ state.stream.m_read_pos.toNat + r.val.toNat := by
            rw [UInt32.toNat_add]
            exact Nat.mod_le _ _
        _ ≤ state.taken + data.length := Nat.add_le_add h.pos_le (Nat.le_of_eq hval)
    · simp [step, HttpListenerRequestStream.read, h.attached, hread, hfailed]

theorem OfBody.read_of_step (h : OfBody content_length state) {size : UInt32}
    (hstep : state.step base size = ok next) :
    ∃ r data base_state, base.read state.base_state size = ok (r, data, base_state) := by
  cases hread : base.read state.base_state size with
  | ok answer => exact ⟨_, _, _, rfl⟩
  | fail error => simp [step, HttpListenerRequestStream.read, h.attached, hread] at hstep
  | div => simp [step, HttpListenerRequestStream.read, h.attached, hread] at hstep

theorem OfBody.step (hbase : base.ReturnsAtMost) (h : OfBody content_length state) {size : UInt32}
    (hwithin : WithinRest base content_length state size) (hstep : state.step base size = ok next) :
    OfBody content_length next := by
  obtain ⟨r, data, base_state, hread⟩ := h.read_of_step hstep
  obtain ⟨stream, hattached, hpos, heq⟩ := h.step_eq hbase hread
  cases heq.symm.trans hstep
  have hrest : data.length ≤ content_length.toNat - state.taken := by
    rcases hwithin with hsize | hgives
    · exact (hbase _ _ _ _ _ hread).2.trans hsize
    · exact hgives r data base_state hread
  have hle := h.taken_le
  exact ⟨hattached, hpos, by simp only; omega⟩

/-- Any other read takes bytes that are not of the body. -/
theorem OfBody.leaves (hbase : base.ReturnsAtMost) (h : OfBody content_length state) {size : UInt32}
    (hbeyond : ¬ WithinRest base content_length state size) :
    ∃ next, state.step base size = ok next ∧ ¬ InWindow content_length next := by
  rw [WithinRest, not_or] at hbeyond
  obtain ⟨r, data, base_state, hread, hmore⟩ : ∃ r data base_state,
      base.read state.base_state size = ok (r, data, base_state) ∧
        ¬ data.length ≤ content_length.toNat - state.taken := by
    simpa only [not_forall, exists_prop] using hbeyond.2
  obtain ⟨stream, -, -, heq⟩ := h.step_eq hbase hread
  refine ⟨_, heq, fun hwindow => ?_⟩
  have htaken : state.taken + data.length ≤ content_length.toNat := hwindow.1
  omega

/-- The window of a request body: over a base stream that returns at most what it is
asked for, a sequence of reads takes no more than `content_length` bytes and leaves the
position within it, if and only if every read of it asks for no more than the rest or is
given no more. -/
theorem body_window_iff (hbase : base.ReturnsAtMost) (base_state : σ) (content_length : UInt32)
    (sizes : List UInt32) :
    Always (step base) (InWindow content_length) { stream := .attach content_length, base_state } sizes ↔
      Along (step base) (WithinRest base content_length)
        { stream := .attach content_length, base_state } sizes :=
  always_iff_along_of_break (OfBody content_length) (fun _ => OfBody.inWindow)
    (fun _ _ _ hinv _ hwithin hstep => hinv.step hbase hwithin hstep)
    (fun _ _ hinv _ hbeyond => hinv.leaves hbase hbeyond) (OfBody.attach content_length base_state)
    (Along.of_forall fun _ _ _ => trivial)

/-- The base stream that gives at most five bytes a read. -/
def fives : Stream Unit where
  read _ size := ok (⟨kOk, (min size.toNat 5).toUInt32⟩, List.replicate (min size.toNat 5) 0, ())
  write _ data := ok (⟨kOk, data.length.toUInt32⟩, ())
  flush := ok

theorem fives_returnsAtMost : fives.ReturnsAtMost := by
  intro state size r data next hread
  cases hread
  rw [List.length_replicate]
  refine ⟨?_, Nat.min_le_left _ _⟩
  rw [Nat.toUInt32_eq, UInt32.toNat_ofNat_of_lt' (Nat.lt_of_le_of_lt (Nat.min_le_right _ _) (by decide))]

/-- A body of ten bytes, of which the first read is given five and the second asks for
the other five. -/
theorem body_window_in_two_reads :
    Always (step fives) (InWindow 10) { stream := .attach 10, base_state := () } [10, 5] := by
  refine (body_window_iff fives_returnsAtMost () 10 [10, 5]).mpr ⟨.inl (by decide), ?_⟩
  intro next hnext
  cases hnext
  exact ⟨.inl (by decide), fun _ _ => trivial⟩

/-- The base stream that has as many bytes as it is asked for. -/
def endless : Stream Unit where
  read _ size := ok (⟨kOk, size⟩, List.replicate size.toNat 0, ())
  write _ data := ok (⟨kOk, data.length.toUInt32⟩, ())
  flush := ok

theorem endless_returnsAtMost : endless.ReturnsAtMost := by
  intro state size r data next hread
  cases hread
  simp

/-- A body of one byte, read with a two-byte buffer: both bytes are taken. -/
theorem read_past_window :
    endless.ReturnsAtMost ∧
      ∃ next, step endless { stream := .attach 1, base_state := () } 2 = ok next ∧
        next.taken = 2 ∧ next.stream.m_read_pos = 2 ∧ ¬ next.InWindow 1 := by
  refine ⟨endless_returnsAtMost, _, rfl, rfl, rfl, ?_⟩
  intro hwindow
  exact absurd hwindow.1 (by decide)

end BodyReads

end kfw.web

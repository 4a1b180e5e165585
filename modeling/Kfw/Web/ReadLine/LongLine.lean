import Kfw.Text.StringBuffer.Capacity
import Kfw.Web.ReadLine.FirstCrlf

open exec Result kfw.io kfw.net kfw.text kfw.text.StringBuffer

namespace kfw.web

variable {σ : Type} {base : Stream σ} {pending : σ → List UInt8 → Prop} {capacity : Nat} {text : List UInt8}

/-- The loop takes at least the text in front of the first CRLF before it can end with one. -/
theorem exists_lineText (hfirst : ¬ [13, 10] <:+: text) (rest : List UInt8) :
    ∃ taken more, LineText taken ∧ text.length ≤ taken.length ∧ text ++ 13 :: 10 :: rest = taken ++ more := by
  rcases unended_of_no_crlf hfirst with htext | ⟨front, rfl, hfront⟩
  · exact ⟨text, 13 :: 10 :: rest, htext, Nat.le_refl _, rfl⟩
  · exact ⟨front ++ [13, 13], 10 :: rest, hfront.append lineText_cr_cr, by simp, by simp⟩

/-- `read_line` comes back with a failure. -/
def RefusesLine (base : Stream σ) (s : BufferedStream) (base_state : σ) (line : StringBuffer) (buf : UInt8) : Prop :=
  ∃ fuel r s' base_state' line', read_line base s base_state line buf fuel = ok (r, s', base_state', line') ∧
    is_failed r = true

/-- A line longer than its buffer is refused only if the buffer is that large; otherwise
it is written outside. -/
theorem refusesLine_iff (hbase : base.Delivers pending) {s : BufferedStream} {base_state : σ} {line : StringBuffer}
    {rest content : List UInt8} (hunread : Unread pending s base_state (text ++ 13 :: 10 :: rest))
    (hfirst : ¬ [13, 10] <:+: text) (hlong : capacity < text.length) (hline : line.Filled capacity content)
    (buf : UInt8) : RefusesLine base s base_state line buf ↔ 2 ^ 31 < capacity := by
  obtain ⟨taken, more, htaken, hlength, hsplit⟩ := exists_lineText hfirst rest
  have hlimit := limit_le hline.capacity_lt
  rw [hsplit] at hunread
  have hstops := hunread.stopsAtLimit hbase htaken hline (by omega) buf
  constructor
  · rintro ⟨fuel, r, s', base_state', line', hread, -⟩
    exact (hstops.answer hread).1
  · intro hlarge
    obtain ⟨fuel, s', base_state', line', hread, -⟩ := hstops.refused hlarge
    exact ⟨fuel, _, s', base_state', line', hread, rfl⟩

/-- The calls on a buffer of any capacity, and the lines that are too long for it. -/
theorem capacity_kept_iff (allocator : Allocator) (heap : Heap) (capacity : UInt32) (actions : List BufferCall) :
    (Along Filling.call Filling.Bounded { sb := (create allocator heap capacity).1 } actions ↔
      Along Filling.call Filling.HasRoom { sb := (create allocator heap capacity).1 } actions) ∧
    ∀ {σ : Type} {base : Stream σ} {pending : σ → List UInt8 → Prop} {s : BufferedStream} {base_state : σ}
      {line : StringBuffer} {text rest content : List UInt8} (buf : UInt8),
      base.Delivers pending → Unread pending s base_state (text ++ 13 :: 10 :: rest) → ¬ [13, 10] <:+: text →
      capacity.toNat < text.length → line.Filled capacity.toNat content →
      (RefusesLine base s base_state line buf ↔ 2 ^ 31 < capacity.toNat) :=
  ⟨bounded_run_iff allocator heap capacity actions,
    fun buf hbase hunread hfirst hlong hline => refusesLine_iff hbase hunread hfirst hlong hline buf⟩

/-- Two characters in a buffer for two, which is too small for a line of three. -/
theorem capacity_kept_two :
    Along Filling.call Filling.Bounded { sb := (create (.bump id) .empty 2).1 } [.append 65, .clear, .append 66,
      .append 67] ∧
    ¬ RefusesLine Wire.stream fresh_stream (Wire.whole (ascii "ABC" ++ 13 :: 10 :: [])) (fresh_line 2) 0 := by
  obtain ⟨hrun, hline⟩ := capacity_kept_iff (.bump id) .empty 2 [.append 65, .clear, .append 66, .append 67]
  constructor
  · rw [hrun, along_cons_of_ok rfl, along_cons_of_ok rfl, along_cons_of_ok rfl, along_cons_of_ok rfl]
    exact ⟨⟨Option.some_ne_none _, by decide⟩, trivial, ⟨Option.some_ne_none _, by decide⟩,
      ⟨Option.some_ne_none _, by decide⟩, trivial⟩
  · rw [hline 0 Wire.stream_delivers (fresh_stream_unread _) (by decide) (by decide) (fresh_line_filled 2)]
    decide

/-- A second character in a buffer for one is written behind it, and so is a line of two
characters. -/
theorem capacity_exceeded :
    steps Filling.call { sb := (create (.bump id) .empty 1).1 } [.append 65, .append 66] = fail .invalid_access ∧
      ∃ fuel, read_line Wire.stream fresh_stream (Wire.whole (ascii "AB\r\n")) (fresh_line 1) 0 fuel =
        fail .invalid_access := by
  have hunread : Unread Wire.Pending fresh_stream (Wire.whole (ascii "AB\r\n")) (ascii "AB" ++ ascii "\r\n") :=
    fresh_stream_unread _
  have htext : LineText (ascii "AB") := lineText_of_notMem (by decide)
  have hstops := hunread.stopsAtLimit Wire.stream_delivers htext (fresh_line_filled 1) (by decide) 0
  exact ⟨rfl, hstops.faults (by decide)⟩

end kfw.web

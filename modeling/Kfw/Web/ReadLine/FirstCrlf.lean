import Mathlib.Algebra.Group.Nat.Even
import Mathlib.Data.List.DropRight
import Kfw.Net.Wire
import Kfw.Web.ReadLine

open exec Result kfw.io kfw.net kfw.text

namespace kfw.web

variable {σ : Type} {base : Stream σ} {pending : σ → List UInt8 → Prop} {capacity : Nat} {text : List UInt8}

theorem Piece.lineText {piece : List UInt8} (h : Piece piece) : LineText piece := by
  simpa using LineText.piece h .nil

theorem lineText_cr_cr : LineText [13, 13] := (Piece.pair (by decide)).lineText

theorem LineText.append {more : List UInt8} (h : LineText text) (hmore : LineText more) : LineText (text ++ more) := by
  induction h with
  | nil => exact hmore
  | piece hpiece _ ih =>
    rw [List.append_assoc]
    exact .piece hpiece ih

/-- Bytes in which no pass meets the end of a line: they are taken as they are, or up to a
CR at their end. -/
def Unended (bytes : List UInt8) : Prop := LineText bytes ∨ ∃ front, bytes = front ++ [13] ∧ LineText front

theorem Unended.piece {piece bytes : List UInt8} (hpiece : Piece piece) (h : Unended bytes) :
    Unended (piece ++ bytes) := by
  rcases h with hbytes | ⟨front, rfl, hfront⟩
  · exact .inl (.piece hpiece hbytes)
  · exact .inr ⟨piece ++ front, by rw [List.append_assoc], .piece hpiece hfront⟩

/-- Any bytes begin with a line and its CRLF, or are without an end. -/
theorem exists_line_or_unended (bytes : List UInt8) :
    (∃ text rest, LineText text ∧ bytes = text ++ 13 :: 10 :: rest) ∨ Unended bytes := by
  have hadd : ∀ {piece bytes : List UInt8}, Piece piece →
      (∃ text rest, LineText text ∧ bytes = text ++ 13 :: 10 :: rest) ∨ Unended bytes →
      (∃ text rest, LineText text ∧ piece ++ bytes = text ++ 13 :: 10 :: rest) ∨ Unended (piece ++ bytes) := by
    rintro piece bytes hpiece (⟨text, rest, htext, rfl⟩ | hbytes)
    · exact .inl ⟨piece ++ text, rest, .piece hpiece htext, by rw [List.append_assoc]⟩
    · exact .inr (hbytes.piece hpiece)
  match bytes with
  | [] => exact .inr (.inl .nil)
  | [byte] =>
    by_cases hcr : byte = 13
    · exact .inr (.inr ⟨[], by rw [hcr]; rfl, .nil⟩)
    · exact .inr (.inl (.piece (.char hcr) .nil))
  | byte :: next :: bytes =>
    by_cases hcr : byte = 13
    · subst hcr
      by_cases hlf : next = 10
      · subst hlf
        exact .inl ⟨[], bytes, .nil, rfl⟩
      · exact hadd (.pair hlf) (exists_line_or_unended bytes)
    · exact hadd (.char hcr) (exists_line_or_unended (next :: bytes))

theorem unended_of_no_crlf (hfirst : ¬ [13, 10] <:+: text) : Unended text := by
  refine (exists_line_or_unended text).resolve_left ?_
  rintro ⟨front, rest, -, rfl⟩
  exact hfirst ⟨front, rest, by simp⟩

/-- The number of CRs at the end of a text. -/
def trailing_cr (text : List UInt8) : Nat := (text.rtakeWhile (· = 13)).length

theorem trailing_cr_append (front text : List UInt8) :
    trailing_cr (front ++ text) =
      trailing_cr text + if trailing_cr text = text.length then trailing_cr front else 0 := by
  simp only [trailing_cr, List.rtakeWhile, List.length_reverse, List.reverse_append, List.takeWhile_append]
  split
  · rename_i hall
    rw [List.length_append, List.length_reverse, hall]
  · rfl

theorem Piece.even_trailing_cr {piece : List UInt8} (h : Piece piece) : Even (trailing_cr piece) := by
  cases h with
  | char hbyte => simp [trailing_cr, List.rtakeWhile, hbyte]
  | @pair byte _ =>
    by_cases hcr : byte = 13
    · subst hcr
      decide
    · simp [trailing_cr, List.rtakeWhile, hcr]

theorem LineText.even_trailing_cr (h : LineText text) : Even (trailing_cr text) := by
  induction h with
  | nil => exact Even.zero
  | piece hpiece _ ih =>
    rw [trailing_cr_append]
    split
    · exact ih.add hpiece.even_trailing_cr
    · exact ih

/-- A CR more at its end is all that text without a CRLF may lack. -/
theorem lineText_iff (hfirst : ¬ [13, 10] <:+: text) : LineText text ↔ Even (trailing_cr text) := by
  refine ⟨LineText.even_trailing_cr, fun heven => (unended_of_no_crlf hfirst).resolve_right ?_⟩
  rintro ⟨front, rfl, hfront⟩
  rw [trailing_cr_append] at heven
  have hone : trailing_cr [13] = 1 := rfl
  rw [hone, if_pos (by rfl), Nat.even_add] at heven
  exact absurd (heven.mpr hfront.even_trailing_cr) (by decide)

/-- A line that holds `count` characters at least. -/
def Longer (capacity count : Nat) (line : StringBuffer) : Prop :=
  ∃ content, line.Filled capacity content ∧ count ≤ content.length

theorem Longer.append_each {count : Nat} {line next : StringBuffer} {chars : List UInt8} {r : ret_t}
    (h : Longer capacity count line) (happend : line.append_each chars = ok (r, next)) :
    Longer capacity count next := by
  obtain ⟨content, hline, hcount⟩ := h
  by_cases hroom : content.length + chars.length ≤ StringBuffer.limit capacity
  · obtain ⟨next', happend', hnext⟩ := hline.append_each hroom
    rw [happend] at happend'
    cases happend'
    exact ⟨_, hnext, by rw [List.length_append]; omega⟩
  · obtain ⟨last, hlast, hstop⟩ := hline.append_each_past (Nat.not_le.mp hroom)
    have hlimit := hline.length_le
    rw [happend] at hstop
    split at hstop
    · cases hstop
    · cases hstop
      exact ⟨_, hlast, by rw [List.length_take, List.length_append]; omega⟩

/-- A pass that comes back has met the end of the line or added a piece to it. -/
theorem read_line_pass_ok {fuel : Nat} {state : LineReading σ}
    {flow : Flow (LineReading σ) (ret_t × BufferedStream × σ × StringBuffer)}
    (h : read_line_pass base fuel state = ok flow) :
    (∃ s base_state, flow = .done (kOk, s, base_state, state.line)) ∨
      ∃ piece answer s base_state buf, state.line.append_each piece = ok answer ∧
        flow = LineReading.after s base_state buf answer := by
  have hadded : ∀ {piece : List UInt8} {last : BufferedStream} {lastState : σ}, Piece piece →
      Reads base fuel state.s state.base_state state.buf (piece ++ []) last lastState →
      ∃ piece answer s base_state buf, state.line.append_each piece = ok answer ∧
        flow = LineReading.after s base_state buf answer := by
    intro piece last lastState hpiece hreads
    obtain ⟨s, base_state, buf, -, hpass⟩ := hpiece.read_line_pass_eq hreads
    rw [hpass] at h
    obtain ⟨answer, happend, hflow⟩ := bind_eq_ok_iff.mp h
    cases hflow
    exact ⟨piece, answer, s, base_state, buf, happend, rfl⟩
  obtain ⟨⟨_, data, s, base_state⟩, hread, hflow⟩ := bind_eq_ok_iff.mp h
  by_cases hcr : data.headD state.buf = 13
  · simp only [if_pos hcr] at hflow
    obtain ⟨⟨_, next, s', base_state'⟩, hreadNext, -⟩ := bind_eq_ok_iff.mp hflow
    by_cases hlf : next.headD 13 = 10
    · rw [read_line_pass_end (.cons hread hcr (.cons hreadNext hlf .nil))] at h
      cases h
      exact .inl ⟨_, _, rfl⟩
    · exact .inr (hadded (.pair hlf) (.cons hread hcr (.cons hreadNext rfl .nil)))
  · exact .inr (hadded (.char hcr) (.cons hread rfl .nil))

/-- The loop never shortens the line. -/
theorem Longer.loop {count inner fuel : Nat} {state : LineReading σ}
    {answer : ret_t × BufferedStream × σ × StringBuffer} (h : Longer capacity count state.line)
    (hloop : exec.loop (read_line_pass base inner) fuel state = ok answer) : Longer capacity count answer.2.2.2 := by
  refine loop_invariant _ (fun state => Longer capacity count state.line)
    (fun answer => Longer capacity count answer.2.2.2) (fun state flow hstate hpass => ?_) h hloop
  rcases read_line_pass_ok hpass with ⟨s, base_state, rfl⟩ | ⟨piece, answer, s, base_state, buf, happend, rfl⟩
  · exact hstate
  · rw [LineReading.after]
    split <;> exact hstate.append_each happend

/-- `read_line` gives the text before a CRLF and leaves what follows it. -/
def FramesLine (base : Stream σ) (pending : σ → List UInt8 → Prop) (s : BufferedStream) (base_state : σ)
    (line : StringBuffer) (buf : UInt8) (text rest : List UInt8) : Prop :=
  ∃ fuel s' base_state' line', read_line base s base_state line buf fuel = ok (kOk, s', base_state', line') ∧
    line'.Filled 1024 text ∧ Unread pending s' base_state' rest

/-- With the CR of its CRLF taken as the second of a pair, a line is read too far. -/
theorem not_framesLine (hbase : base.Delivers pending) {s : BufferedStream} {base_state : σ} {line : StringBuffer}
    {rest content : List UInt8} (hunread : Unread pending s base_state (text ++ 13 :: 10 :: rest))
    (htext : LineText (text ++ [13])) (hline : line.Filled 1024 content) (buf : UInt8) :
    ¬ FramesLine base pending s base_state line buf text rest := by
  rintro ⟨fuel, s', base_state', line', hread, hfilled, -⟩
  rw [← List.singleton_append, ← List.append_assoc] at hunread
  have hlength : (text ++ [13]).length = text.length + 1 := List.length_append
  by_cases hroom : (text ++ [13]).length ≤ StringBuffer.limit 1024
  · have hmore := read_line_more hread (text.length + 5)
    obtain ⟨last, lastState, hreads, -⟩ := hunread.reads hbase (by omega : 3 ≤ text.length + 5 + fuel) buf
    obtain ⟨next, buf', passed, hnext, hle, hloop⟩ := htext.loop_eq { s, base_state, line := line.clear, buf }
      hreads hline.clear (by simpa using hroom)
    obtain ⟨spare, hspare⟩ : ∃ spare, text.length + 5 + fuel = passed + spare :=
      ⟨text.length + 5 + fuel - passed, by omega⟩
    have hrun := hloop spare
    rw [← hspare, ← read_line, hmore] at hrun
    obtain ⟨content', hcontent, hcount⟩ := Longer.loop ⟨_, hnext, Nat.le_refl _⟩ hrun.symm
    have hsame := hcontent.length.symm.trans hfilled.length
    rw [List.nil_append] at hcount
    omega
  · have hstops := hunread.stopsAtLimit hbase htext hline (Nat.not_le.mp hroom) buf
    exact absurd (hstops.answer hread).1 (by decide)

/-- The first CRLF ends the line if and only if an even number of CRs stands in front of it. -/
theorem framesLine_iff (hbase : base.Delivers pending) {s : BufferedStream} {base_state : σ} {line : StringBuffer}
    {rest content : List UInt8} (hunread : Unread pending s base_state (text ++ 13 :: 10 :: rest))
    (hfirst : ¬ [13, 10] <:+: text) (hlength : text.length ≤ 1024) (hline : line.Filled 1024 content) (buf : UInt8) :
    FramesLine base pending s base_state line buf text rest ↔ Even (trailing_cr text) := by
  rw [← lineText_iff hfirst]
  refine ⟨fun hframes => (unended_of_no_crlf hfirst).resolve_right ?_, fun htext => ?_⟩
  · rintro ⟨front, rfl, hfront⟩
    refine not_framesLine hbase hunread ?_ hline buf hframes
    rw [List.append_assoc]
    exact hfront.append lineText_cr_cr
  · obtain ⟨s', base_state', line', hread, hnext, hfilled⟩ :=
      htext.read_line_eq hbase hunread hline hlength buf (Nat.le_refl _)
    exact ⟨_, s', base_state', line', hread, hfilled, hnext⟩

/-- A stream of which nothing was read yet. -/
def fresh_stream : BufferedStream :=
  { m_base_stream := true, m_read_buffer := List.replicate 256 0, m_read_buffer_size := 256 }

theorem fresh_stream_buffers : fresh_stream.Buffers [] where
  attached := rfl
  size_pos := by decide
  size_le := by
    rw [fresh_stream, List.length_replicate]
    decide
  rp_le := Nat.le_refl _
  wp_le := Nat.zero_le _
  unread_eq := rfl

theorem fresh_stream_unread (bytes : List UInt8) : Unread Wire.Pending fresh_stream (Wire.whole bytes) bytes :=
  ⟨[], bytes, fresh_stream_buffers, Wire.whole_pending bytes, rfl⟩

/-- A line buffer without any text in it. -/
def fresh_line (capacity : UInt32) : StringBuffer :=
  { m_capacity := capacity, m_length := 0, m_data := some (List.replicate capacity.toNat 0) }

theorem fresh_line_filled (capacity : UInt32) : (fresh_line capacity).Filled capacity.toNat [] :=
  ⟨rfl, rfl, Nat.zero_le _, _, rfl, List.length_replicate, List.nil_prefix⟩

/-- A CR, an LF and two CRs more within the line. -/
theorem framesLine_even :
    FramesLine Wire.stream Wire.Pending fresh_stream (Wire.whole (ascii "A\rB\nC\r\r" ++ 13 :: 10 :: ascii "D"))
      (fresh_line 1024) 0 (ascii "A\rB\nC\r\r") (ascii "D") := by
  refine (framesLine_iff Wire.stream_delivers (fresh_stream_unread _) ?_ ?_ (fresh_line_filled 1024) 0).mpr ?_
  · decide
  · decide
  · decide

/-- Of a line with one CR in front of its CRLF the CRLF is not found: it is read as one
line with the next. -/
theorem framesLine_one_cr :
    ¬ FramesLine Wire.stream Wire.Pending fresh_stream (Wire.whole (ascii "\r\r\nA\r\n")) (fresh_line 1024) 0
      (ascii "\r") (ascii "A\r\n") ∧
    ∃ s wire line, read_line Wire.stream fresh_stream (Wire.whole (ascii "\r\r\nA\r\n")) (fresh_line 1024) 0 7 =
      ok (kOk, s, wire, line) ∧ Unread Wire.Pending s wire [] ∧ line.Filled 1024 (ascii "\r\r\nA") := by
  have hpair : LineText (ascii "\r" ++ [13]) := lineText_cr_cr
  have hrest : LineText (ascii "\nA") := lineText_of_notMem (by decide)
  constructor
  · exact not_framesLine Wire.stream_delivers (fresh_stream_unread _) hpair (fresh_line_filled 1024) 0
  · exact (hpair.append hrest).read_line_eq Wire.stream_delivers (fresh_stream_unread _) (fresh_line_filled 1024)
      (by decide) 0 (Nat.le_refl _)

end kfw.web

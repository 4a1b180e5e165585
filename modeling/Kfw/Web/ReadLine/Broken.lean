import Kfw.Web.ReadLine.FirstCrlf

open exec Result kfw.io kfw.net kfw.text

namespace kfw.web

variable {σ : Type} {base : Stream σ} {pending : σ → List UInt8 → Prop} {s : BufferedStream} {base_state : σ}
  {capacity : Nat} {delivered : List UInt8}

theorem Unread.read_broken (h : Unread pending s base_state []) (hbase : base.BreaksOff pending) {fuel : Nat}
    (hfuel : 0 < fuel) :
    ∃ r next nextState, Unread pending next nextState [] ∧
      s.read base base_state 1 fuel = ok (r, [], next, nextState) := by
  obtain ⟨unread, more, hbuffers, hpending, hrest⟩ := h
  obtain ⟨rfl, rfl⟩ := List.append_eq_nil_iff.mp hrest
  obtain ⟨spare, rfl⟩ : ∃ spare, fuel = spare + 1 := ⟨fuel - 1, by omega⟩
  obtain ⟨r, data, nextState, hread, hr, hdata, hnextPending⟩ :=
    hbase.fails base_state s.m_read_buffer_size hpending hbuffers.size_pos
  obtain ⟨next, hnext, hreadOne⟩ := hbuffers.read_broken hread hr hdata spare
  exact ⟨_, next, nextState, ⟨[], [], hnext, hnextPending, rfl⟩, hreadOne⟩

/-- When the connection has broken off, the reads leave the last byte in the one-byte
buffer again and again. -/
theorem Unread.reads_broken (h : Unread pending s base_state delivered) (hbase : base.BreaksOff pending)
    {fuel : Nat} (hfuel : 3 ≤ fuel) (buf : UInt8) (count : Nat) :
    ∃ last lastState,
      Reads base fuel s base_state buf (delivered ++ List.replicate count (delivered.getLastD buf)) last lastState := by
  induction delivered generalizing s base_state buf with
  | cons byte delivered ih =>
    obtain ⟨next, nextState, hnext, hread⟩ := h.read_one hbase.delivers hfuel
    obtain ⟨last, lastState, hreads⟩ := ih hnext byte
    rw [List.getLastD_cons]
    exact ⟨last, lastState, .cons hread rfl hreads⟩
  | nil =>
    rw [List.nil_append, List.getLastD_nil]
    induction count generalizing s base_state with
    | zero => exact ⟨s, base_state, .nil⟩
    | succ count ih =>
      obtain ⟨r, next, nextState, hnext, hread⟩ := h.read_broken hbase (by omega : 0 < fuel)
      obtain ⟨last, lastState, hreads⟩ := ih hnext
      exact ⟨last, lastState, .cons hread rfl hreads⟩

theorem lineText_replicate (byte : UInt8) (count : Nat) : LineText (List.replicate (2 * count) byte) := by
  have htwice : LineText [byte, byte] := by
    by_cases hcr : byte = 13
    · subst hcr
      exact lineText_cr_cr
    · exact lineText_of_notMem (by simpa using Ne.symm hcr)
  induction count with
  | zero => exact .nil
  | succ count ih => exact htwice.append ih

/-- With its last byte repeated, text without an end never comes to the end of a line. -/
theorem Unended.exists_lineText_stale (h : Unended delivered) (buf : UInt8) (count : Nat) :
    ∃ more, count ≤ more ∧ more ≤ 2 * count + 1 ∧
      LineText (delivered ++ List.replicate more (delivered.getLastD buf)) := by
  rcases h with htext | ⟨front, rfl, hfront⟩
  · exact ⟨2 * count, by omega, Nat.le_succ _, htext.append (lineText_replicate _ count)⟩
  · refine ⟨2 * count + 1, by omega, Nat.le_refl _, ?_⟩
    rw [List.append_assoc, List.getLastD_concat, List.singleton_append, ← List.replicate_succ]
    exact hfront.append (lineText_replicate 13 (count + 1))

/-- The line is filled with the last byte up to the limit. -/
theorem exists_stopsAtLimit (hbase : base.BreaksOff pending) (hunread : Unread pending s base_state delivered)
    (hunended : Unended delivered) {line : StringBuffer} {content : List UInt8}
    (hline : line.Filled capacity content) (buf : UInt8) :
    ∃ text, delivered <+: text ∧ StringBuffer.limit capacity < text.length ∧
      text.length ≤ delivered.length + 2 * StringBuffer.limit capacity + 3 ∧
      StopsAtLimit base s base_state line buf capacity text := by
  obtain ⟨more, hmore, hless, htext⟩ := hunended.exists_lineText_stale buf (StringBuffer.limit capacity + 1)
  have hpast : StringBuffer.limit capacity <
      (delivered ++ List.replicate more (delivered.getLastD buf)).length := by
    rw [List.length_append, List.length_replicate]
    omega
  refine ⟨_, List.prefix_append _ _, hpast, ?_,
    htext.stopsAtLimit (fun fuel hfuel => hunread.reads_broken hbase hfuel buf more) hline hpast⟩
  rw [List.length_append, List.length_replicate]
  omega

/-- Bytes that begin with a line that has room in a buffer. -/
def BeginsWithLine (capacity : Nat) (bytes : List UInt8) : Prop :=
  ∃ text rest, bytes = text ++ 13 :: 10 :: rest ∧ LineText text ∧ text.length ≤ capacity

/-- With a buffer as that of a request, `read_line` writes outside of it when it gets
other bytes. -/
theorem Unread.read_line_faults {bytes : List UInt8} (h : Unread pending s base_state bytes)
    (hbase : base.BreaksOff pending) {line : StringBuffer} {content : List UInt8} (hline : line.Holds capacity content)
    (hbegins : ¬ BeginsWithLine capacity bytes) (buf : UInt8) {fuel : Nat}
    (hfuel : bytes.length + 2 * capacity + 6 ≤ fuel) :
    read_line base s base_state line buf fuel = fail .invalid_access := by
  have hfault : ∀ {text : List UInt8}, StopsAtLimit base s base_state line buf capacity text →
      text.length + 3 ≤ fuel → read_line base s base_state line buf fuel = fail .invalid_access := by
    intro text hstops hle
    obtain ⟨_, _, _, -, hstop⟩ := hstops fuel hle
    rwa [if_pos (Nat.le_of_lt hline.capacity_lt)] at hstop
  rcases exists_line_or_unended bytes with ⟨text, rest, htext, rfl⟩ | hunended
  · have hlong : capacity < text.length := Nat.not_le.mp fun hroom => hbegins ⟨text, rest, rfl, htext, hroom⟩
    rw [List.length_append] at hfuel
    exact hfault (h.stopsAtLimit hbase.delivers htext hline.toFilled (hline.limit_eq.symm ▸ hlong) buf) (by omega)
  · obtain ⟨text, -, -, hlength, hstops⟩ := exists_stopsAtLimit hbase h hunended hline.toFilled buf
    rw [hline.limit_eq] at hlength
    exact hfault hstops (by omega)

/-- With a buffer as that of a request, `read_line` comes back only from a line that is
complete and fits. -/
theorem Unread.read_line_inv {bytes : List UInt8} (h : Unread pending s base_state bytes)
    (hbase : base.BreaksOff pending) {line line' : StringBuffer} {content : List UInt8}
    (hline : line.Holds capacity content) {buf : UInt8} {fuel : Nat} {r : ret_t} {s' : BufferedStream}
    {base_state' : σ} (hread : read_line base s base_state line buf fuel = ok (r, s', base_state', line')) :
    ∃ text rest, bytes = text ++ 13 :: 10 :: rest ∧ LineText text ∧ text.length ≤ capacity ∧ r = kOk ∧
      Unread pending s' base_state' rest ∧ line'.Holds capacity text := by
  by_cases hbegins : BeginsWithLine capacity bytes
  · obtain ⟨text, rest, rfl, htext, hroom⟩ := hbegins
    obtain ⟨next, nextState, nextLine, hspec, hnext, hholds⟩ := htext.read_line_spec hbase.delivers h hline hroom
      buf (Nat.le_add_right (text.length + 3) fuel)
    rw [read_line_more hread] at hspec
    cases hspec
    exact ⟨text, rest, rfl, htext, hroom, rfl, hnext, hholds⟩
  · have hfault := h.read_line_faults hbase hline hbegins buf (Nat.le_add_right _ fuel)
    rw [read_line_more hread] at hfault
    cases hfault

/-- `read_line` comes back with a failure, and the line holds bytes of the stream only. -/
def ReportsBreak (base : Stream σ) (s : BufferedStream) (base_state : σ) (line : StringBuffer) (buf : UInt8)
    (capacity : Nat) (delivered : List UInt8) : Prop :=
  ∃ fuel r s' base_state' line', read_line base s base_state line buf fuel = ok (r, s', base_state', line') ∧
    is_failed r = true ∧ ∃ content, line'.Filled capacity content ∧ content <+: delivered

/-- That happens only if the line is large enough for `append` to refuse a character, and
the bytes of the stream reach up to there. -/
theorem reportsBreak_iff (hbase : base.BreaksOff pending) (hunread : Unread pending s base_state delivered)
    (hfirst : ¬ [13, 10] <:+: delivered) {line : StringBuffer} {content : List UInt8}
    (hline : line.Filled capacity content) (buf : UInt8) :
    ReportsBreak base s base_state line buf capacity delivered ↔
      2 ^ 31 < capacity ∧ 2 ^ 32 - capacity < delivered.length := by
  obtain ⟨text, hprefix, hpast, -, hstops⟩ := exists_stopsAtLimit hbase hunread
    (unended_of_no_crlf hfirst) hline buf
  constructor
  · rintro ⟨fuel, r, s', base_state', line', hread, -, content', hfilled, hdelivered⟩
    obtain ⟨hlarge, hlimit⟩ := hstops.answer hread
    -- the line holds as many characters as the limit says, all of which were delivered
    have hlength := hfilled.length.symm.trans hlimit.length
    have hcount := hdelivered.length_le
    rw [List.length_take, Nat.min_eq_left hpast.le, StringBuffer.limit_of_gt hlarge] at hlength
    omega
  · rintro ⟨hlarge, hcount⟩
    obtain ⟨fuel, s', base_state', line', hread, hfilled⟩ := hstops.refused hlarge
    refine ⟨fuel, _, s', base_state', line', hread, rfl, _, hfilled, ?_⟩
    obtain ⟨more, rfl⟩ := hprefix
    rw [List.take_append_of_le_length (by rw [StringBuffer.limit_of_gt hlarge]; omega)]
    exact List.take_prefix _ _

/-- A buffer that is so large that two characters fill it. -/
theorem reportsBreak_large :
    ReportsBreak Wire.stream fresh_stream (Wire.whole (ascii "AB")) (fresh_line 4294967295) 0 4294967295
      (ascii "AB") :=
  (reportsBreak_iff Wire.stream_breaksOff (fresh_stream_unread _) (by decide) (fresh_line_filled 4294967295) 0).mpr
    (by decide)

/-- Of a connection that is closed after one byte, this byte is appended until it is
written behind the line buffer of a request. -/
theorem reportsBreak_closed :
    ¬ ReportsBreak Wire.stream fresh_stream (Wire.whole (ascii "A")) (fresh_line 1024) 0 1024 (ascii "A") ∧
      ∃ fuel, read_line Wire.stream fresh_stream (Wire.whole (ascii "A")) (fresh_line 1024) 0 fuel =
        fail .invalid_access := by
  obtain ⟨text, -, -, -, hstops⟩ := exists_stopsAtLimit Wire.stream_breaksOff (fresh_stream_unread (ascii "A"))
    (unended_of_no_crlf (by decide)) (fresh_line_filled 1024) 0
  refine ⟨?_, hstops.faults (by decide)⟩
  rintro ⟨fuel, r, s', base_state', line', hread, -⟩
  exact absurd (hstops.answer hread).1 (by decide)

end kfw.web

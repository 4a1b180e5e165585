import Kfw.Io.BufferedStream.Unread
import Kfw.Text.StringBuffer

open exec Result kfw.io kfw.text

namespace kfw.web

variable {σ : Type}

/-- Where the loop of `read_line` stands; `buf` is its one-byte buffer, which a
read that fails leaves as it is. -/
structure LineReading (σ : Type) where
  s : BufferedStream
  base_state : σ
  line : StringBuffer
  buf : UInt8

/-- One pass through the loop of `read_line`. The answers of the reads are not
looked at. -/
def read_line_pass (base : Stream σ) (fuel : Nat) (state : LineReading σ) :
    Exec (Flow (LineReading σ) (ret_t × BufferedStream × σ × StringBuffer)) := do
  let (_, data, s, base_state) ← state.s.read base state.base_state 1 fuel
  let b := data.headD state.buf
  if b = 13 then do
    let (_, data, s, base_state) ← s.read base base_state 1 fuel
    let b2 := data.headD b
    if b2 = 10 then ok (.done (kOk, s, base_state, state.line))
    else do
      let (r, line) ← state.line.append b
      if is_failed r then ok (.done (r, s, base_state, line))
      else do
        let (r, line) ← line.append b2
        if is_failed r then ok (.done (r, s, base_state, line))
        else ok (.cont { s, base_state, line, buf := b2 })
  else do
    let (r, line) ← state.line.append b
    if is_failed r then ok (.done (r, s, base_state, line))
    else ok (.cont { s, base_state, line, buf := b })

/-- `buf` is what the one-byte buffer happens to hold before the first read. -/
def read_line (base : Stream σ) (s : BufferedStream) (base_state : σ) (line : StringBuffer) (buf : UInt8)
    (fuel : Nat) : Exec (ret_t × BufferedStream × σ × StringBuffer) :=
  loop (read_line_pass base fuel) fuel { s, base_state, line := line.clear, buf }

variable {base : Stream σ} {pending : σ → List UInt8 → Prop}

/-- Everything of a connection that was not read yet: what is in the read
buffer, and then what the base stream still has. -/
def Unread (pending : σ → List UInt8 → Prop) (s : BufferedStream) (base_state : σ) (rest : List UInt8) : Prop :=
  ∃ unread more, s.Buffers unread ∧ pending base_state more ∧ unread ++ more = rest

theorem Unread.unique
    (hpending : ∀ state more more', pending state more → pending state more' → more = more')
    {s : BufferedStream} {base_state : σ} {rest rest' : List UInt8}
    (h : Unread pending s base_state rest) (h' : Unread pending s base_state rest') : rest = rest' := by
  obtain ⟨unread, more, hbuffers, hmore, rfl⟩ := h
  obtain ⟨unread', more', hbuffers', hmore', rfl⟩ := h'
  rw [hbuffers.unread_eq, hbuffers'.unread_eq, hpending base_state more more' hmore hmore']

/-- Reading one byte of what is left. -/
theorem Unread.read_one {s : BufferedStream} {base_state : σ} {byte : UInt8} {rest : List UInt8}
    (h : Unread pending s base_state (byte :: rest)) (hbase : base.Delivers pending) {fuel : Nat}
    (hfuel : 3 ≤ fuel) :
    ∃ next nextState, Unread pending next nextState rest ∧
      s.read base base_state 1 fuel = ok (⟨kOk, 1⟩, [byte], next, nextState) := by
  obtain ⟨unread, more, hbuffers, hpending, hrest⟩ := h
  obtain ⟨spare, rfl⟩ : ∃ spare, fuel = spare + 3 := ⟨fuel - 3, by omega⟩
  obtain ⟨next, nextState, nextUnread, nextMore, hnext, hnextPending, hnextRest, hread⟩ :=
    hbuffers.read_one hbase hpending hrest spare
  exact ⟨next, nextState, ⟨nextUnread, nextMore, hnext, hnextPending, hnextRest⟩, hread⟩

/-- The bytes that the one-byte buffer holds after one read and the next. A read that
gives no byte leaves the one before it, `buf` at first. -/
inductive Reads (base : Stream σ) (fuel : Nat) :
    BufferedStream → σ → UInt8 → List UInt8 → BufferedStream → σ → Prop where
  | nil {s : BufferedStream} {base_state : σ} {buf : UInt8} : Reads base fuel s base_state buf [] s base_state
  | cons {s next last : BufferedStream} {base_state nextState lastState : σ} {buf byte : UInt8}
      {r : RetVal UInt32} {data text : List UInt8}
      (hread : s.read base base_state 1 fuel = ok (r, data, next, nextState)) (hbyte : data.headD buf = byte)
      (hrest : Reads base fuel next nextState byte text last lastState) :
      Reads base fuel s base_state buf (byte :: text) last lastState

/-- What is left is read byte by byte. -/
theorem Unread.reads {s : BufferedStream} {base_state : σ} {text rest : List UInt8}
    (h : Unread pending s base_state (text ++ rest)) (hbase : base.Delivers pending) {fuel : Nat} (hfuel : 3 ≤ fuel)
    (buf : UInt8) :
    ∃ last lastState, Reads base fuel s base_state buf text last lastState ∧ Unread pending last lastState rest := by
  induction text generalizing s base_state buf with
  | nil => exact ⟨s, base_state, .nil, h⟩
  | cons byte text ih =>
    obtain ⟨next, nextState, hnext, hread⟩ := h.read_one hbase hfuel
    obtain ⟨last, lastState, hreads, hlast⟩ := ih hnext byte
    exact ⟨last, lastState, .cons hread rfl hreads, hlast⟩

/-- The pass that meets the end of the line. -/
theorem read_line_pass_end {fuel : Nat} {state : LineReading σ} {s : BufferedStream} {base_state : σ}
    (hreads : Reads base fuel state.s state.base_state state.buf [13, 10] s base_state) :
    read_line_pass base fuel state = ok (.done (kOk, s, base_state, state.line)) := by
  obtain - | ⟨hread, hcr, - | ⟨hreadNext, hlf, - | -⟩⟩ := hreads
  simp only [read_line_pass, hread, bind_ok, hcr, hreadNext, hlf, if_true]

/-- What a pass adds to the line: a character, or a CR together with the byte behind it. -/
inductive Piece : List UInt8 → Prop where
  | char {byte : UInt8} (hbyte : byte ≠ 13) : Piece [byte]
  | pair {byte : UInt8} (hbyte : byte ≠ 10) : Piece [13, byte]

theorem Piece.ne_nil {piece : List UInt8} (h : Piece piece) : piece ≠ [] := by
  cases h with
  | char | pair => exact List.cons_ne_nil _ _

/-- How a pass ends with the answer to its appends. -/
def LineReading.after (s : BufferedStream) (base_state : σ) (buf : UInt8) (answer : ret_t × StringBuffer) :
    Flow (LineReading σ) (ret_t × BufferedStream × σ × StringBuffer) :=
  if is_failed answer.1 then .done (answer.1, s, base_state, answer.2)
  else .cont { s, base_state, line := answer.2, buf }

/-- Any other pass. -/
theorem Piece.read_line_pass_eq {piece text : List UInt8} (h : Piece piece) {fuel : Nat} {state : LineReading σ}
    {last : BufferedStream} {lastState : σ}
    (hreads : Reads base fuel state.s state.base_state state.buf (piece ++ text) last lastState) :
    ∃ s base_state buf, Reads base fuel s base_state buf text last lastState ∧
      read_line_pass base fuel state =
        (state.line.append_each piece >>= fun answer => ok (LineReading.after s base_state buf answer)) := by
  cases h with
  | @char byte hchar =>
    obtain - | ⟨hread, hbyte, hrest⟩ := hreads
    refine ⟨_, _, byte, hrest, ?_⟩
    simp only [read_line_pass, hread, bind_ok, hbyte, if_neg hchar, StringBuffer.append_each]
    cases state.line.append byte with
    | ok answer =>
      rw [bind_ok, bind_ok]
      split <;> simp [LineReading.after, *]
    | fail | div => rfl
  | @pair byte hpair =>
    obtain - | ⟨hread, hcr, - | ⟨hreadNext, hbyte, hrest⟩⟩ := hreads
    refine ⟨_, _, byte, hrest, ?_⟩
    simp only [read_line_pass, hread, bind_ok, hcr, if_true, hreadNext, hbyte, if_neg hpair, StringBuffer.append_each]
    cases state.line.append 13 with
    | ok answer =>
      rw [bind_ok, bind_ok]
      split
      · simp [LineReading.after, *]
      · cases answer.2.append byte with
        | ok second =>
          rw [bind_ok, bind_ok]
          split <;> simp [LineReading.after, *]
        | fail | div => rfl
    | fail | div => rfl

/-- The text that the loop adds pass by pass, none of which meets the end of a line. -/
inductive LineText : List UInt8 → Prop where
  | nil : LineText []
  | piece {piece text : List UInt8} (hpiece : Piece piece) (htext : LineText text) : LineText (piece ++ text)

theorem lineText_of_notMem {text : List UInt8} (htext : 13 ∉ text) : LineText text := by
  induction text with
  | nil => exact .nil
  | cons byte text ih =>
    rw [List.mem_cons, not_or] at htext
    exact .piece (.char (Ne.symm htext.1)) (ih htext.2)

variable {capacity : Nat}

/-- The loop collects text that fits; the induction is on its passes. -/
theorem LineText.loop_eq {text : List UInt8} (htext : LineText text) {inner : Nat} (state : LineReading σ)
    {last : BufferedStream} {lastState : σ} {content : List UInt8}
    (hreads : Reads base inner state.s state.base_state state.buf text last lastState)
    (hline : state.line.Filled capacity content)
    (hroom : content.length + text.length ≤ StringBuffer.limit capacity) :
    ∃ line buf passed, line.Filled capacity (content ++ text) ∧ passed ≤ text.length ∧
      ∀ fuel, loop (read_line_pass base inner) (passed + fuel) state =
        loop (read_line_pass base inner) fuel { s := last, base_state := lastState, line, buf } := by
  induction htext generalizing state content with
  | nil =>
    cases hreads
    refine ⟨state.line, state.buf, 0, ?_, Nat.le_refl _, fun fuel => by rw [Nat.zero_add]⟩
    rwa [List.append_nil]
  | @piece piece text hpiece _ ih =>
    rw [List.length_append] at hroom
    obtain ⟨s, base_state, buf, hrest, hpass⟩ := hpiece.read_line_pass_eq hreads
    have hfits : content.length + piece.length ≤ StringBuffer.limit capacity := by omega
    obtain ⟨next, hnext, hnextLine⟩ := hline.append_each hfits
    rw [hnext, bind_ok] at hpass
    obtain ⟨line, buf, passed, hfilled, hle, hloop⟩ := ih { s, base_state, line := next, buf } hrest hnextLine
      (by rw [List.length_append]; omega)
    rw [List.append_assoc] at hfilled
    have hpos := List.length_pos_iff.mpr hpiece.ne_nil
    refine ⟨line, buf, passed + 1, hfilled, by rw [List.length_append]; omega, fun fuel => ?_⟩
    rw [Nat.add_right_comm, loop_cont (passed + fuel) hpass, hloop]

/-- Text that does not fit is collected up to the limit, where the loop ends. -/
theorem LineText.loop_stop {text : List UInt8} (htext : LineText text) {inner : Nat} (state : LineReading σ)
    {last : BufferedStream} {lastState : σ} {content : List UInt8}
    (hreads : Reads base inner state.s state.base_state state.buf text last lastState)
    (hline : state.line.Filled capacity content)
    (hpast : StringBuffer.limit capacity < content.length + text.length) :
    ∃ s base_state line passed, line.Filled capacity ((content ++ text).take (StringBuffer.limit capacity)) ∧
      passed ≤ text.length ∧ ∀ fuel, loop (read_line_pass base inner) (passed + fuel + 1) state =
        if capacity ≤ 2 ^ 31 then fail .invalid_access else ok (kEOutOfMemory, s, base_state, line) := by
  induction htext generalizing state content with
  | nil => exact absurd hline.length_le (Nat.not_le.mpr hpast)
  | @piece piece text hpiece _ ih =>
    rw [List.length_append] at hpast
    obtain ⟨s, base_state, buf, hrest, hpass⟩ := hpiece.read_line_pass_eq hreads
    by_cases hroom : content.length + piece.length ≤ StringBuffer.limit capacity
    · obtain ⟨next, hnext, hnextLine⟩ := hline.append_each hroom
      rw [hnext, bind_ok] at hpass
      obtain ⟨s, base_state, line, passed, hfilled, hle, hloop⟩ := ih { s, base_state, line := next, buf } hrest
        hnextLine (by rw [List.length_append]; omega)
      rw [List.append_assoc] at hfilled
      have hpos := List.length_pos_iff.mpr hpiece.ne_nil
      refine ⟨s, base_state, line, passed + 1, hfilled, by rw [List.length_append]; omega, fun fuel => ?_⟩
      rw [Nat.add_right_comm passed, loop_cont (passed + fuel + 1) hpass, hloop]
    · obtain ⟨line, hfilled, hstop⟩ := hline.append_each_past (Nat.not_le.mp hroom)
      rw [hstop] at hpass
      refine ⟨s, base_state, line, 0, ?_, Nat.zero_le _, fun fuel => ?_⟩
      · rwa [← List.append_assoc, List.take_append_of_le_length (by rw [List.length_append]; omega)]
      · by_cases hle : capacity ≤ 2 ^ 31
        · rw [if_pos hle] at hpass ⊢
          simp [loop, hpass]
        · rw [if_neg hle] at hpass ⊢
          exact loop_done _ hpass

/-- A line of such text is read up to its CRLF. -/
theorem LineText.read_line_eq {text : List UInt8} (htext : LineText text) (hbase : base.Delivers pending)
    {s : BufferedStream} {base_state : σ} {line : StringBuffer} {rest content : List UInt8}
    (hunread : Unread pending s base_state (text ++ 13 :: 10 :: rest)) (hline : line.Filled capacity content)
    (hroom : text.length ≤ StringBuffer.limit capacity) (buf : UInt8) {fuel : Nat} (hfuel : text.length + 3 ≤ fuel) :
    ∃ s' base_state' line', read_line base s base_state line buf fuel = ok (kOk, s', base_state', line') ∧
      Unread pending s' base_state' rest ∧ line'.Filled capacity text := by
  have hinner : 3 ≤ fuel := by omega
  obtain ⟨next, nextState, hreads, hnext⟩ := hunread.reads hbase hinner buf
  obtain ⟨line', buf', passed, hfilled, hle, hloop⟩ := htext.loop_eq { s, base_state, line := line.clear, buf }
    hreads hline.clear (by simpa using hroom)
  have hcrlf : Unread pending next nextState ([13, 10] ++ rest) := hnext
  obtain ⟨last, lastState, hend, hlast⟩ := hcrlf.reads hbase hinner buf'
  obtain ⟨more, hmore⟩ : ∃ more, fuel = passed + (more + 1) := ⟨fuel - passed - 1, by omega⟩
  refine ⟨last, lastState, line', ?_, hlast, hfilled⟩
  calc read_line base s base_state line buf fuel
      = loop (read_line_pass base fuel) (passed + (more + 1)) { s, base_state, line := line.clear, buf } := by
        rw [read_line, ← hmore]
    _ = ok (kOk, last, lastState, line') := by rw [hloop, loop_done more (read_line_pass_end hend)]

theorem read_line_pass_stable {fuel more : Nat} (hfuel : fuel ≤ more) {state : LineReading σ}
    (h : read_line_pass base fuel state ≠ div) : read_line_pass base more state = read_line_pass base fuel state := by
  refine bind_stable (BufferedStream.read_stable hfuel) ?_ h
  rintro ⟨_, data, s, base_state⟩ hanswer
  by_cases hcr : data.headD state.buf = 13
  · simp only [if_pos hcr] at hanswer ⊢
    exact bind_stable (BufferedStream.read_stable hfuel) (fun _ _ => rfl) hanswer
  · simp only [if_neg hcr]

/-- More fuel does not change what a line is read as. -/
theorem read_line_more {s : BufferedStream} {base_state : σ} {line : StringBuffer} {buf : UInt8} {fuel : Nat}
    {answer : ret_t × BufferedStream × σ × StringBuffer} (h : read_line base s base_state line buf fuel = ok answer)
    (more : Nat) : read_line base s base_state line buf (more + fuel) = ok answer := by
  rw [← h]
  exact loop_stable_of_body (fun _ => read_line_pass_stable (Nat.le_add_left fuel more)) (Nat.le_add_left fuel more)
    (by rw [read_line] at h; rw [h]; simp)

/-- With enough fuel the line is filled with the text up to the limit, where `append`
ends the loop. -/
def StopsAtLimit (base : Stream σ) (s : BufferedStream) (base_state : σ) (line : StringBuffer) (buf : UInt8)
    (capacity : Nat) (text : List UInt8) : Prop :=
  ∀ fuel, text.length + 3 ≤ fuel → ∃ s' base_state' line',
    line'.Filled capacity (text.take (StringBuffer.limit capacity)) ∧
    read_line base s base_state line buf fuel =
      if capacity ≤ 2 ^ 31 then fail .invalid_access else ok (kEOutOfMemory, s', base_state', line')

section StopsAtLimit

variable {s : BufferedStream} {base_state : σ} {line : StringBuffer} {buf : UInt8} {text : List UInt8}

theorem LineText.stopsAtLimit {content : List UInt8} (htext : LineText text)
    (hreads : ∀ fuel, 3 ≤ fuel → ∃ last lastState, Reads base fuel s base_state buf text last lastState)
    (hline : line.Filled capacity content) (hpast : StringBuffer.limit capacity < text.length) :
    StopsAtLimit base s base_state line buf capacity text := by
  intro fuel hfuel
  obtain ⟨last, lastState, hreads⟩ := hreads fuel (by omega)
  obtain ⟨s', base_state', line', passed, hfilled, hle, hloop⟩ := htext.loop_stop
    { s, base_state, line := line.clear, buf } hreads hline.clear (by simpa using hpast)
  obtain ⟨more, hmore⟩ : ∃ more, fuel = passed + more + 1 := ⟨fuel - passed - 1, by omega⟩
  refine ⟨s', base_state', line', hfilled, ?_⟩
  rw [← hloop more, ← hmore, read_line]

/-- The same of text that is unread. -/
theorem Unread.stopsAtLimit {rest content : List UInt8} (h : Unread pending s base_state (text ++ rest))
    (hbase : base.Delivers pending) (htext : LineText text) (hline : line.Filled capacity content)
    (hpast : StringBuffer.limit capacity < text.length) (buf : UInt8) :
    StopsAtLimit base s base_state line buf capacity text := by
  refine htext.stopsAtLimit (fun fuel hfuel => ?_) hline hpast
  obtain ⟨last, lastState, hreads, -⟩ := h.reads hbase hfuel buf
  exact ⟨last, lastState, hreads⟩

/-- Only a large buffer lets `read_line` come back. -/
theorem StopsAtLimit.answer (h : StopsAtLimit base s base_state line buf capacity text) {fuel : Nat} {r : ret_t}
    {s' : BufferedStream} {base_state' : σ} {line' : StringBuffer}
    (hread : read_line base s base_state line buf fuel = ok (r, s', base_state', line')) :
    2 ^ 31 < capacity ∧ line'.Filled capacity (text.take (StringBuffer.limit capacity)) := by
  obtain ⟨_, _, _, hfilled, hstop⟩ := h (text.length + 3 + fuel) (Nat.le_add_right _ _)
  rw [read_line_more hread] at hstop
  by_cases hle : capacity ≤ 2 ^ 31
  · rw [if_pos hle] at hstop
    cases hstop
  · rw [if_neg hle] at hstop
    cases hstop
    exact ⟨Nat.not_le.mp hle, hfilled⟩

theorem StopsAtLimit.refused (h : StopsAtLimit base s base_state line buf capacity text)
    (hlarge : 2 ^ 31 < capacity) :
    ∃ fuel s' base_state' line', read_line base s base_state line buf fuel =
        ok (kEOutOfMemory, s', base_state', line') ∧
      line'.Filled capacity (text.take (StringBuffer.limit capacity)) := by
  obtain ⟨s', base_state', line', hfilled, hstop⟩ := h (text.length + 3) (Nat.le_refl _)
  rw [if_neg (Nat.not_le.mpr hlarge)] at hstop
  exact ⟨_, s', base_state', line', hstop, hfilled⟩

theorem StopsAtLimit.faults (h : StopsAtLimit base s base_state line buf capacity text)
    (hle : capacity ≤ 2 ^ 31) : ∃ fuel, read_line base s base_state line buf fuel = fail .invalid_access := by
  obtain ⟨_, _, _, -, hstop⟩ := h (text.length + 3) (Nat.le_refl _)
  exact ⟨_, hstop.trans (if_pos hle)⟩

end StopsAtLimit

/-- Reading a line leaves exactly what follows its CRLF, however the bytes are
split into reads. -/
theorem LineText.read_line_spec {text : List UInt8} (htext : LineText text) (hbase : base.Delivers pending)
    {s : BufferedStream} {base_state : σ} {line : StringBuffer} {rest content : List UInt8}
    (hunread : Unread pending s base_state (text ++ 13 :: 10 :: rest))
    (hline : line.Holds capacity content) (hroom : text.length ≤ capacity) (buf : UInt8) {fuel : Nat}
    (hfuel : text.length + 3 ≤ fuel) :
    ∃ s' base_state' line', read_line base s base_state line buf fuel = ok (kOk, s', base_state', line') ∧
      Unread pending s' base_state' rest ∧ line'.Holds capacity text := by
  obtain ⟨s', base_state', line', hread, hnext, hfilled⟩ := htext.read_line_eq hbase hunread
    hline.toFilled (hline.limit_eq.symm ▸ hroom) buf hfuel
  exact ⟨s', base_state', line', hread, hnext, hfilled, hline.capacity_pos, hline.capacity_lt⟩

/-- The same of a line without a CR in it. -/
theorem read_line_spec (hbase : base.Delivers pending) {s : BufferedStream} {base_state : σ}
    {line : StringBuffer} {text rest content : List UInt8} (htext : 13 ∉ text)
    (hunread : Unread pending s base_state (text ++ 13 :: 10 :: rest))
    (hline : line.Holds capacity content) (hroom : text.length ≤ capacity) (buf : UInt8) {fuel : Nat}
    (hfuel : text.length + 3 ≤ fuel) :
    ∃ s' base_state' line', read_line base s base_state line buf fuel = ok (kOk, s', base_state', line') ∧
      Unread pending s' base_state' rest ∧ line'.Holds capacity text :=
  (lineText_of_notMem htext).read_line_spec hbase hunread hline hroom buf hfuel

end kfw.web

import Kfw.Common.StringRef.Cut
import Kfw.Text.StringBuffer

open exec Result kfw.text

namespace kfw.web

open ConstStringRef

/-- The parts of a request line that `parse_request_line` sets. -/
structure RequestLine where
  method : ConstStringRef := {}
  url : ConstStringRef := {}
  http_version : ConstStringRef := {}

def parse_request_line (request_line : ConstStringRef) : Exec (ret_t × RequestLine) := do
  let p0 ← request_line.index_of 32 0
  if p0 < 0 then ok (kEFormat, {})
  else do
    let p1 ← request_line.index_of 32 (p0 + 1).toUInt32
    let method := request_line.sub_string 0 p0.toUInt32
    if p1 ≥ 0 then
      ok (kOk, {
        method
        url := request_line.sub_string (p0 + 1).toUInt32 (p1 - (p0 + 1)).toUInt32
        http_version := request_line.sub_string_from (p1 + 1).toUInt32 })
    else ok (kOk, { method, url := request_line.sub_string_from (p0 + 1).toUInt32, http_version := {} })

/-- `parse_http_header` on the key and the value that the caller has. -/
def parse_http_header_into (sb : StringBuffer) (key val : ConstStringRef) :
    Exec (ret_t × ConstStringRef × ConstStringRef) := do
  let header := sb.to_ref
  let offset ← header.index_of 58 0
  if offset < 0 then ok (kEArgument, key, val)
  else do
    let key ← (header.sub_string 0 offset.toUInt32).trim
    let val ← (header.sub_string_from (offset + 1).toUInt32).trim
    ok (kOk, key, val)

/-- The key and the value of a header line. Those of the caller are empty everywhere. -/
def parse_http_header (sb : StringBuffer) : Exec (ret_t × ConstStringRef × ConstStringRef) :=
  parse_http_header_into sb {} {}

variable {str : ConstStringRef} {text : List UInt8}

/-- The parts of a line are slices of it. -/
structure RequestLine.Within (parsed : RequestLine) (line : ConstStringRef) : Prop where
  method : parsed.method.IsSlice line
  url : parsed.url.IsSlice line
  http_version : parsed.http_version.IsSlice line

/-- Parsing a request line with at least one space. Without a second one the
URL is the rest of the line, and there is no version. -/
theorem parse_request_line_spec (h : str.Refers text) (hlength : text.length < 2 ^ 31)
    (hspace : 32 ∈ text) :
    ∃ parsed, parse_request_line str = ok (kOk, parsed) ∧ parsed.method.Refers (before 32 text) ∧
      parsed.url.Refers (before 32 (after 32 text)) ∧
      parsed.http_version.Refers (after 32 (after 32 text)) ∧ parsed.Within str := by
  obtain ⟨front, rest, hfront, hfrontNot, hrest⟩ : ∃ front rest, before 32 text = front ∧ 32 ∉ front ∧
      after 32 text = rest := ⟨_, _, rfl, notMem_before 32 text, rfl⟩
  obtain rfl : text = front ++ 32 :: rest := by rw [← hfront, ← hrest, ← before_append_after hspace]
  obtain ⟨hindex, hmethod, hurl⟩ := h.cut hfrontNot hlength
  have hnonneg : ¬ Int32.ofNat front.length < 0 := by
    rw [List.length_append, List.length_cons] at hlength
    exact not_index_neg (by omega)
  have hmethodSlice := h.isSlice_sub_string hmethod (by simp)
  rw [hfront, hrest]
  by_cases hsecond : 32 ∈ rest
  · obtain ⟨middle, back, hmiddle, hmiddleNot, hback⟩ : ∃ middle back, before 32 rest = middle ∧ 32 ∉ middle ∧
        after 32 rest = back := ⟨_, _, rfl, notMem_before 32 rest, rfl⟩
    obtain rfl : rest = middle ++ 32 :: back := by rw [← hmiddle, ← hback, ← before_append_after hsecond]
    obtain ⟨hindexAgain, hurl, hversion⟩ := h.cut_again hmiddleNot hlength
    have hnonnegAgain : Int32.ofNat (front.length + 1 + middle.length) ≥ 0 := by
      simp only [List.length_append, List.length_cons] at hlength
      exact Int32.not_lt.mp (not_index_neg (by omega))
    have hurlSlice := h.isSlice_sub_string hurl (by
      simp only [List.length_append, List.length_cons] at hlength ⊢
      rw [index_add_one (by omega)]
      omega)
    have hversionSlice := h.isSlice_sub_string hversion (by
      simp only [List.length_append, List.length_cons] at hlength ⊢
      rw [index_add_one (by omega)]
      omega)
    rw [hmiddle, hback]
    refine ⟨{
      method := str.sub_string 0 (Int32.ofNat front.length).toUInt32
      url := str.sub_string (Int32.ofNat front.length + 1).toUInt32
        (Int32.ofNat (front.length + 1 + middle.length) - (Int32.ofNat front.length + 1)).toUInt32
      http_version := str.sub_string_from (Int32.ofNat (front.length + 1 + middle.length) + 1).toUInt32 },
      ?_, hmethod, hurl, hversion, hmethodSlice, hurlSlice, hversionSlice⟩
    simp only [parse_request_line, hindex, bind_ok, if_neg hnonneg, hindexAgain, if_pos hnonnegAgain]
  · have hneg : ¬ (-1 : Int32) ≥ 0 := by decide
    have hurlSlice := h.isSlice_sub_string hurl (by
      simp only [List.length_append, List.length_cons] at hlength ⊢
      rw [index_add_one (by omega)]
      omega)
    rw [before_of_notMem hsecond, after_of_notMem hsecond]
    refine ⟨{
      method := str.sub_string 0 (Int32.ofNat front.length).toUInt32
      url := str.sub_string_from (Int32.ofNat front.length + 1).toUInt32
      http_version := {} }, ?_, hmethod, hurl, ⟨rfl, List.nil_prefix⟩, hmethodSlice, hurlSlice, .inl rfl⟩
    simp only [parse_request_line, hindex, bind_ok, if_neg hnonneg, h.index_of_again_none hsecond hlength,
      if_neg hneg]

theorem parse_request_line_none (h : str.Refers text) (hspace : 32 ∉ text) :
    parse_request_line str = ok (kEFormat, {}) := by
  have hneg : (-1 : Int32) < 0 := by decide
  simp only [parse_request_line, h.index_of_none hspace, bind_ok, if_pos hneg]

variable {sb : StringBuffer} {capacity : Nat}

/-- Parsing a header line with a colon gives name and value without the spaces
around them. -/
theorem parse_http_header_into_spec (h : sb.to_ref.Refers text) (hlength : text.length < 2 ^ 31)
    (hcolon : 58 ∈ text) (key val : ConstStringRef) :
    ∃ key' val', parse_http_header_into sb key val = ok (kOk, key', val') ∧
      key'.Refers (trimmed (before 58 text)) ∧ val'.Refers (trimmed (after 58 text)) := by
  obtain ⟨front, rest, hfront, hfrontNot, hrest⟩ : ∃ front rest, before 58 text = front ∧ 58 ∉ front ∧
      after 58 text = rest := ⟨_, _, rfl, notMem_before 58 text, rfl⟩
  obtain rfl : text = front ++ 58 :: rest := by rw [← hfront, ← hrest, ← before_append_after hcolon]
  obtain ⟨hindex, hkey, hval⟩ := h.cut hfrontNot hlength
  have hnonneg : ¬ Int32.ofNat front.length < 0 := by
    rw [List.length_append, List.length_cons] at hlength
    exact not_index_neg (by omega)
  obtain ⟨key', hkeyTrim, hkey⟩ := hkey.trim
  obtain ⟨val', hvalTrim, hval⟩ := hval.trim
  rw [hfront, hrest]
  refine ⟨key', val', ?_, hkey, hval⟩
  simp only [parse_http_header_into, hindex, bind_ok, if_neg hnonneg, hkeyTrim, hvalTrim]

theorem parse_http_header_into_none (h : sb.to_ref.Refers text) (hcolon : 58 ∉ text) (key val : ConstStringRef) :
    parse_http_header_into sb key val = ok (kEArgument, key, val) := by
  have hneg : (-1 : Int32) < 0 := by decide
  simp only [parse_http_header_into, h.index_of_none hcolon, bind_ok, if_pos hneg]

theorem parse_http_header_spec (h : sb.Holds capacity text) (hcolon : 58 ∈ text) :
    ∃ key val, parse_http_header sb = ok (kOk, key, val) ∧ key.Refers (trimmed (before 58 text)) ∧
      val.Refers (trimmed (after 58 text)) := by
  have hlength : text.length < 2 ^ 31 := Nat.lt_of_le_of_lt h.length_le_capacity h.capacity_lt
  exact parse_http_header_into_spec h.to_ref hlength hcolon {} {}

theorem parse_http_header_none (h : sb.Holds capacity text) (hcolon : 58 ∉ text) :
    parse_http_header sb = ok (kEArgument, {}, {}) :=
  parse_http_header_into_none h.to_ref hcolon {} {}

end kfw.web

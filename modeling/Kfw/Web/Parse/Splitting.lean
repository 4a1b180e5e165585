import Kfw.Web.Parse

open exec Result kfw.text

namespace kfw.web

open ConstStringRef

variable {str : ConstStringRef} {text : List UInt8}

/-- The three parts of a request line. -/
structure RequestLine.Splits (text method url version : List UInt8) : Prop where
  method_space : 32 ∉ method
  url_space : 32 ∉ url
  one : text.count 32 = 1 → text = method ++ 32 :: url ∧ version = []
  more : 1 < text.count 32 → text = method ++ 32 :: (url ++ 32 :: version)

theorem RequestLine.splits_at_spaces (hspace : 32 ∈ text) :
    RequestLine.Splits text (before 32 text) (before 32 (after 32 text)) (after 32 (after 32 text)) := by
  have hcut := before_append_after hspace
  have hcount : text.count 32 = (after 32 text).count 32 + 1 := by
    conv_lhs => rw [hcut]
    rw [List.count_append, List.count_cons_self, List.count_eq_zero.mpr (notMem_before 32 text), Nat.zero_add]
  refine ⟨notMem_before 32 text, notMem_before 32 _, ?_, ?_⟩
  · intro hone
    have hlast : 32 ∉ after 32 text := List.count_eq_zero.mp (by omega)
    rw [before_of_notMem hlast, after_of_notMem hlast, ← hcut]
    exact ⟨rfl, rfl⟩
  · intro hmore
    have hagain : 32 ∈ after 32 text := List.count_pos_iff.mp (by omega)
    rw [← before_append_after hagain, ← hcut]

/-- A request line is refused without a space, and cut at its first two spaces
otherwise; a method and a URL without spaces come back from the line they are
joined to. -/
theorem parse_request_line_splits (h : str.Refers text) (hlength : text.length < 2 ^ 31) :
    ∃ r parsed, parse_request_line str = ok (r, parsed) ∧ (r = kOk ↔ 32 ∈ text) ∧
      (r = kOk → parsed.Within str ∧ ∃ method url version, parsed.method.Refers method ∧
        parsed.url.Refers url ∧ parsed.http_version.Refers version ∧
        RequestLine.Splits text method url version) ∧
      ∀ method url version, 32 ∉ method → 32 ∉ url → text = method ++ 32 :: (url ++ 32 :: version) →
        r = kOk ∧ parsed.method.Refers method ∧ parsed.url.Refers url ∧ parsed.http_version.Refers version := by
  by_cases hspace : 32 ∈ text
  · obtain ⟨parsed, hparse, hmethod, hurl, hversion, hwithin⟩ := parse_request_line_spec h hlength hspace
    refine ⟨kOk, parsed, hparse, iff_of_true rfl hspace, ?_, ?_⟩
    · intro _
      exact ⟨hwithin, _, _, _, hmethod, hurl, hversion, RequestLine.splits_at_spaces hspace⟩
    · intro method url version hmethodNot hurlNot hjoin
      obtain ⟨hfirst, hrest⟩ : before 32 text = method ∧ after 32 text = url ++ 32 :: version := by
        rw [hjoin]
        exact before_append hmethodNot
      obtain ⟨hsecond, hlast⟩ : before 32 (after 32 text) = url ∧ after 32 (after 32 text) = version := by
        rw [hrest]
        exact before_append hurlNot
      rw [hfirst] at hmethod
      rw [hsecond] at hurl
      rw [hlast] at hversion
      exact ⟨rfl, hmethod, hurl, hversion⟩
  · refine ⟨kEFormat, {}, parse_request_line_none h hspace, iff_of_false (by decide) hspace, ?_, ?_⟩
    · intro hok
      exact absurd hok (by decide)
    · intro method url version _ _ hjoin
      exact absurd (by simp [hjoin]) hspace

theorem parse_request_line_splits_get : ∃ r parsed,
    parse_request_line (of_c_str (ascii "GET / HTTP/1.1")) = ok (r, parsed) ∧
      (r = kOk ↔ 32 ∈ ascii "GET / HTTP/1.1") ∧
      (parsed.Within (of_c_str (ascii "GET / HTTP/1.1")) ∧ ∃ method url version, parsed.method.Refers method ∧
        parsed.url.Refers url ∧ parsed.http_version.Refers version ∧
        RequestLine.Splits (ascii "GET / HTTP/1.1") method url version) ∧
      r = kOk ∧ parsed.method.Refers (ascii "GET") ∧ parsed.url.Refers (ascii "/") ∧
        parsed.http_version.Refers (ascii "HTTP/1.1") := by
  have hrefers := refers_of_c_str (by decide : (ascii "GET / HTTP/1.1").length < 2 ^ 32)
  obtain ⟨r, parsed, hparse, hiff, hwithin, hjoined⟩ := parse_request_line_splits hrefers (by decide)
  have hparts := hjoined (ascii "GET") (ascii "/") (ascii "HTTP/1.1") (by decide) (by decide) (by decide)
  exact ⟨r, parsed, hparse, hiff, hwithin hparts.1, hparts⟩

/-- Key and value of a header line, with blanks around them. -/
structure HeaderSplits (text key val : List UInt8) : Prop where
  colon : 58 ∉ key
  key_head : key.head? ≠ some 32
  key_last : key.getLast? ≠ some 32
  val_head : val.head? ≠ some 32
  val_last : val.getLast? ≠ some 32
  line : ∃ a b c d, text = List.replicate a 32 ++ key ++ List.replicate b 32 ++
    58 :: (List.replicate c 32 ++ val ++ List.replicate d 32)

theorem headerSplits_at_colon (hcolon : 58 ∈ text) :
    HeaderSplits text (trimmed (before 58 text)) (trimmed (after 58 text)) := by
  obtain ⟨a, b, hkey⟩ := exists_padded_trimmed (before 58 text)
  obtain ⟨c, d, hval⟩ := exists_padded_trimmed (after 58 text)
  refine ⟨?_, trimmed_head _, trimmed_getLast _, trimmed_head _, trimmed_getLast _, a, b, c, d, ?_⟩
  · intro hmem
    refine notMem_before 58 text ?_
    rw [hkey]
    exact List.mem_append_left _ (List.mem_append_right _ hmem)
  · rw [← hkey, ← hval, ← before_append_after hcolon]

/-- The second line is the first with more blanks around its name and its value. -/
def PadsHeader (text wider : List UInt8) : Prop :=
  ∃ name value a b c d, 58 ∉ name ∧ text = name ++ 58 :: value ∧
    wider = List.replicate a 32 ++ name ++ List.replicate b 32 ++
      58 :: (List.replicate c 32 ++ value ++ List.replicate d 32)

theorem PadsHeader.trimmed_eq {wider : List UInt8} (h : PadsHeader text wider) :
    58 ∈ text ∧ 58 ∈ wider ∧ trimmed (before 58 wider) = trimmed (before 58 text) ∧
      trimmed (after 58 wider) = trimmed (after 58 text) := by
  obtain ⟨name, value, a, b, c, d, hname, rfl, rfl⟩ := h
  have hpadded : 58 ∉ List.replicate a 32 ++ name ++ List.replicate b 32 := by
    simp [List.mem_replicate, hname]
  refine ⟨by simp, by simp, ?_, ?_⟩
  · rw [(before_append hname).1, (before_append hpadded).1, trimmed_padded]
  · rw [(before_append hname).2, (before_append hpadded).2, trimmed_padded]

/-- A header line is refused without a colon, which leaves key and value as they
were. Otherwise key and value are what stands on the two sides of the first
colon, and blanks around them do not matter. -/
theorem parse_http_header_splits {sb : StringBuffer} (h : sb.to_ref.Refers text) (hlength : text.length < 2 ^ 31)
    (key val : ConstStringRef) :
    ∃ r key' val', parse_http_header_into sb key val = ok (r, key', val') ∧ (r = kOk ↔ 58 ∈ text) ∧
      (r = kOk → HeaderSplits text key'.chars val'.chars ∧ key'.Refers key'.chars ∧ val'.Refers val'.chars) ∧
      (r ≠ kOk → key' = key ∧ val' = val) ∧
      ∀ (padded : StringBuffer) wider, PadsHeader text wider → padded.to_ref.Refers wider →
        wider.length < 2 ^ 31 → ∃ padded_key padded_val,
          parse_http_header_into padded key val = ok (r, padded_key, padded_val) ∧
            padded_key.chars = key'.chars ∧ padded_val.chars = val'.chars := by
  by_cases hcolon : 58 ∈ text
  · obtain ⟨key', val', hparse, hkey, hval⟩ := parse_http_header_into_spec h hlength hcolon key val
    refine ⟨kOk, key', val', hparse, iff_of_true rfl hcolon, ?_, ?_, ?_⟩
    · intro _
      rw [hkey.chars_eq, hval.chars_eq]
      exact ⟨headerSplits_at_colon hcolon, hkey, hval⟩
    · intro hfail
      exact absurd rfl hfail
    · intro padded wider hpads hrefers hshort
      obtain ⟨_, hwider, hsameKey, hsameVal⟩ := hpads.trimmed_eq
      obtain ⟨padded_key, padded_val, hpadded, hpaddedKey, hpaddedVal⟩ :=
        parse_http_header_into_spec hrefers hshort hwider key val
      refine ⟨padded_key, padded_val, hpadded, ?_, ?_⟩
      · rw [hpaddedKey.chars_eq, hkey.chars_eq, hsameKey]
      · rw [hpaddedVal.chars_eq, hval.chars_eq, hsameVal]
  · refine ⟨kEArgument, key, val, parse_http_header_into_none h hcolon key val, iff_of_false (by decide) hcolon,
      ?_, fun _ => ⟨rfl, rfl⟩, ?_⟩
    · intro hok
      exact absurd hok (by decide)
    · intro padded wider hpads _ _
      exact absurd hpads.trimmed_eq.1 hcolon

/-- A header line, the same with more blanks, and a line without a colon. -/
theorem parse_http_header_splits_host :
    (∃ key' val', parse_http_header_into ⟨16, 8, some (ascii "Host : a")⟩ {} {} = ok (kOk, key', val') ∧
      HeaderSplits (ascii "Host : a") key'.chars val'.chars ∧ key'.Refers key'.chars ∧ val'.Refers val'.chars ∧
      ∃ padded_key padded_val,
        parse_http_header_into ⟨16, 11, some (ascii " Host  : a ")⟩ {} {} = ok (kOk, padded_key, padded_val) ∧
          padded_key.chars = key'.chars ∧ padded_val.chars = val'.chars) ∧
    ∃ r, r ≠ kOk ∧ parse_http_header_into ⟨16, 4, some (ascii "Host")⟩ {} {} = ok (r, {}, {}) := by
  constructor
  · have hrefers : (StringBuffer.to_ref ⟨16, 8, some (ascii "Host : a")⟩).Refers (ascii "Host : a") :=
      ⟨by decide, by decide⟩
    have hpadded : (StringBuffer.to_ref ⟨16, 11, some (ascii " Host  : a ")⟩).Refers (ascii " Host  : a ") :=
      ⟨by decide, by decide⟩
    have hpads : PadsHeader (ascii "Host : a") (ascii " Host  : a ") :=
      ⟨ascii "Host ", ascii " a", 1, 1, 0, 1, by decide, by decide, by decide⟩
    obtain ⟨r, key', val', hparse, hiff, hsplits, -, hblanks⟩ := parse_http_header_splits hrefers (by decide) {} {}
    obtain rfl : r = kOk := hiff.mpr (by decide)
    exact ⟨key', val', hparse, (hsplits rfl).1, (hsplits rfl).2.1, (hsplits rfl).2.2,
      hblanks _ _ hpads hpadded (by decide)⟩
  · have hrefers : (StringBuffer.to_ref ⟨16, 4, some (ascii "Host")⟩).Refers (ascii "Host") := ⟨by decide, by decide⟩
    obtain ⟨r, key', val', hparse, hiff, -, hkept, -⟩ := parse_http_header_splits hrefers (by decide) {} {}
    have hrefused : r ≠ kOk := fun hok => absurd (hiff.mp hok) (by decide)
    obtain ⟨rfl, rfl⟩ := hkept hrefused
    exact ⟨r, hrefused, hparse⟩

end kfw.web

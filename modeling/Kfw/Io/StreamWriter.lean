import Kfw.Common.Integer
import Kfw.Io.BufferedStream.Alike

open exec Result

namespace kfw.io

/-- A `StreamWriter` over a `BufferedStream`, with the state of what it writes
to. -/
structure StreamWriter (σ : Type) where
  m_s : BufferedStream
  base_state : σ
  m_error : ret_t := kOk

namespace StreamWriter

variable {σ : Type}

/-- `operator <<` for strings. -/
def put (base : Stream σ) (self : StreamWriter σ) (value : List UInt8) : Exec (StreamWriter σ) := do
  let (r, s, base_state) ← self.m_s.write base self.base_state value
  let m_error := if is_failed r.ret then r.ret else self.m_error
  ok { m_s := s, base_state, m_error }

/-- `operator <<` for a number that was made a string. -/
def put_formatted (base : Stream σ) (self : StreamWriter σ) (formatted : ret_t × List UInt8) :
    Exec (StreamWriter σ) :=
  if is_failed formatted.1 then ok { self with m_error := formatted.1 }
  else self.put base formatted.2

def put_int32 (base : Stream σ) (self : StreamWriter σ) (value : Int32) : Exec (StreamWriter σ) := do
  let formatted ← Int32.to_string value Int32.kMaxStringLength
  self.put_formatted base formatted

def put_uint32 (base : Stream σ) (self : StreamWriter σ) (value : UInt32) : Exec (StreamWriter σ) := do
  let formatted ← UInt32.to_string value UInt32.kMaxStringLength
  self.put_formatted base formatted

/-- `flush` of the stream that the writer writes to. -/
def flush (base : Stream σ) (self : StreamWriter σ) : Exec (StreamWriter σ) := do
  let (s, base_state) ← self.m_s.flush base self.base_state
  ok { self with m_s := s, base_state }

/-- Two writers, one over `s` and one over `s'`, that have done the same. -/
def Alike (s s' : BufferedStream) (left right : StreamWriter σ) : Prop :=
  left.m_s = s ∧ right.m_s = s' ∧ left.base_state = right.base_state ∧ left.m_error = right.m_error

section Lockstep

variable {base : Stream σ} {s s' : BufferedStream} {left right : StreamWriter σ}

theorem put_rel (hs : s.Unbuffered) (hs' : s'.Unbuffered) (h : Alike s s' left right)
    (value : List UInt8) :
    (left.put base value).Rel (Alike s s') (right.put base value) := by
  obtain ⟨rfl, rfl, hstate, herror⟩ := h
  unfold put
  rw [hs.write_eq, hs'.write_eq, hstate, herror]
  split
  · exact .ok ⟨rfl, rfl, rfl, rfl⟩
  · refine Result.Rel.bind (R := fun x y => x.1 = y.1 ∧ x.2.1 = left.m_s ∧ y.2.1 = right.m_s ∧ x.2.2 = y.2.2) ?_ ?_
    · apply (Result.Rel.same _ fun _ _ => rfl).bind
      rintro ⟨r, base_state⟩ _ rfl
      exact .ok ⟨rfl, rfl, rfl, rfl⟩
    · rintro ⟨r, _, base_state⟩ ⟨_, _, _⟩ ⟨rfl, rfl, rfl, rfl⟩
      exact .ok ⟨rfl, rfl, rfl, rfl⟩

theorem put_formatted_rel (hs : s.Unbuffered) (hs' : s'.Unbuffered) (h : Alike s s' left right)
    (formatted : ret_t × List UInt8) :
    (left.put_formatted base formatted).Rel (Alike s s') (right.put_formatted base formatted) := by
  unfold put_formatted
  split
  · exact .ok ⟨h.1, h.2.1, h.2.2.1, rfl⟩
  · exact put_rel hs hs' h formatted.2

theorem put_int32_rel (hs : s.Unbuffered) (hs' : s'.Unbuffered) (h : Alike s s' left right)
    (value : Int32) :
    (left.put_int32 base value).Rel (Alike s s') (right.put_int32 base value) := by
  apply (Result.Rel.same _ fun _ _ => rfl).bind
  rintro formatted _ rfl
  exact put_formatted_rel hs hs' h formatted

theorem put_uint32_rel (hs : s.Unbuffered) (hs' : s'.Unbuffered) (h : Alike s s' left right)
    (value : UInt32) :
    (left.put_uint32 base value).Rel (Alike s s') (right.put_uint32 base value) := by
  apply (Result.Rel.same _ fun _ _ => rfl).bind
  rintro formatted _ rfl
  exact put_formatted_rel hs hs' h formatted

theorem flush_rel (hs : s.Unbuffered) (hs' : s'.Unbuffered) (h : Alike s s' left right) :
    (left.flush base).Rel (Alike s s') (right.flush base) := by
  obtain ⟨rfl, rfl, hstate, herror⟩ := h
  unfold flush
  rw [hs.flush_eq, hs'.flush_eq, hstate]
  cases base.flush right.base_state with
  | ok base_state => exact .ok ⟨rfl, rfl, rfl, herror⟩
  | fail error => exact .fail error
  | div => exact .div

end Lockstep

/-- A writer over `s` without an error, whose base stream has taken `bytes`. -/
structure Wrote (sent : σ → List UInt8 → Prop) (writer : StreamWriter σ) (s : BufferedStream)
    (bytes : List UInt8) : Prop where
  stream : writer.m_s = s
  no_error : writer.m_error = kOk
  taken : sent writer.base_state bytes

section Accepted

variable {base : Stream σ} {sent : σ → List UInt8 → Prop} {s : BufferedStream} {writer : StreamWriter σ}
  {bytes : List UInt8}

theorem Wrote.put (h : Wrote sent writer s bytes) (hs : s.Unbuffered) (hbase : base.Accepts sent)
    (value : List UInt8) :
    ∃ next, writer.put base value = ok next ∧ Wrote sent next s (bytes ++ value) := by
  obtain ⟨rfl, herror, hsent⟩ := h
  obtain ⟨r, base_state, hwrite, hr, hnext⟩ := hs.write_accepted hbase hsent value
  refine ⟨{ m_s := writer.m_s, base_state, m_error := kOk }, ?_, rfl, rfl, hnext⟩
  simp [StreamWriter.put, hwrite, hr, herror]

theorem Wrote.put_int32 (h : Wrote sent writer s bytes) (hs : s.Unbuffered) (hbase : base.Accepts sent)
    {n : Nat} (hn : n < 2 ^ 31) :
    ∃ next, writer.put_int32 base (Int32.ofNat n) = ok next ∧ Wrote sent next s (bytes ++ decimal n) := by
  obtain ⟨next, hput, hnext⟩ := h.put hs hbase (decimal n)
  refine ⟨next, ?_, hnext⟩
  simp [StreamWriter.put_int32, Int32.to_string_spec hn, put_formatted, hput]

theorem Wrote.put_uint32 (h : Wrote sent writer s bytes) (hs : s.Unbuffered) (hbase : base.Accepts sent)
    (value : UInt32) :
    ∃ next, writer.put_uint32 base value = ok next ∧ Wrote sent next s (bytes ++ decimal value.toNat) := by
  obtain ⟨next, hput, hnext⟩ := h.put hs hbase (decimal value.toNat)
  refine ⟨next, ?_, hnext⟩
  simp [StreamWriter.put_uint32, UInt32.to_string_spec, put_formatted, hput]

theorem Wrote.flush (h : Wrote sent writer s bytes) (hs : s.Unbuffered) (hbase : base.Accepts sent) :
    ∃ next, writer.flush base = ok next ∧ Wrote sent next s bytes := by
  obtain ⟨rfl, herror, hsent⟩ := h
  obtain ⟨base_state, hflush, hnext⟩ := hbase.flush _ _ hsent
  refine ⟨{ m_s := writer.m_s, base_state, m_error := writer.m_error }, ?_, rfl, herror, hnext⟩
  simp [StreamWriter.flush, hs.flush_eq, hflush]

end Accepted

end StreamWriter

end kfw.io

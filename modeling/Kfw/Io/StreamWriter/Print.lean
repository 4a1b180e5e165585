import Kfw.Common.Integer.Format
import Kfw.Io.StreamWriter
import Kfw.Net.Wire

open exec Result kfw.net

namespace kfw

/-- The values of the digit loop of `Int32::to_string` are those of its types: each
remainder is one of `uint32_t`, and its character one of `char8_t`. -/
def Int32.DigitsRepresentable : Nat → Int32 → Prop
  | 0, _ => False
  | room + 1, value =>
    0 ≤ (value % 10).toInt ∧ (value % 10).toInt + 48 < 2 ^ 7 ∧
      (value / 10 ≠ 0 → DigitsRepresentable room (value / 10))

/-- The values of `Int32::to_string` are those of its types: the negated one, if the
value is negative, and those of the digit loop. -/
def Int32.Representable (value : Int32) : Prop :=
  (value < 0 → -value.toInt < 2 ^ 31) ∧
    Int32.DigitsRepresentable 11 (if value < 0 then -value else value)

theorem Int32.ofNat_mod_ten {n : Nat} (hn : n < 2 ^ 31) : (Int32.ofNat n % 10).toInt = (n % 10 : Nat) := by
  rw [show (10 : Int32) = Int32.ofNat 10 from rfl, ← Int32.ofNat_mod hn (by decide),
    Int32.toInt_ofNat_of_lt (by omega)]

theorem Int32.ofNat_div_ten {n : Nat} (hn : n < 2 ^ 31) : Int32.ofNat n / 10 = Int32.ofNat (n / 10) :=
  (Int32.ofNat_div hn (by decide)).symm

/-- The values of the digit loop from a number that is not negative. -/
theorem Int32.digits_representable {n : Nat} (hn : n < 2 ^ 31) {room : Nat} (hroom : n < 10 ^ (room + 1)) :
    Int32.DigitsRepresentable (room + 1) (Int32.ofNat n) := by
  have hdigit := ofNat_mod_ten hn
  induction room generalizing n with
  | zero =>
    refine ⟨by omega, by omega, fun hmore => absurd ?_ hmore⟩
    rw [ofNat_div_ten hn, show n / 10 = 0 by omega]
    rfl
  | succ room ih =>
    refine ⟨by omega, by omega, fun _ => ?_⟩
    rw [ofNat_div_ten hn]
    exact ih (by omega) (by omega) (ofNat_mod_ten (by omega))

theorem Int32.representable_iff (value : Int32) : Int32.Representable value ↔ value ≠ Int32.minValue := by
  constructor
  · rintro ⟨hneg, -⟩ rfl
    exact absurd (hneg (by decide)) (by decide)
  · intro hmin
    have hlt := Int32.natAbs_lt hmin
    refine ⟨fun _ => by omega, ?_⟩
    rw [Int32.abs_eq hmin]
    exact Int32.digits_representable hlt (by omega)

namespace io

variable {σ : Type}

/-- `taken s state bytes` says that `bytes` were written to the stream so far: it takes
every write whole. -/
def BufferedStream.TakesWrites (base : Stream σ) (taken : BufferedStream → σ → List UInt8 → Prop) : Prop :=
  ∀ s state bytes data, taken s state bytes → ∃ r next nextState,
    s.write base state data = ok (r, next, nextState) ∧ r.ret = kOk ∧ taken next nextState (bytes ++ data)

namespace StreamWriter

/-- Writing the value adds its decimal text to what was taken and records no error,
with every value on the way representable. -/
def Prints (base : Stream σ) (taken : BufferedStream → σ → List UInt8 → Prop) (writer : StreamWriter σ)
    (bytes : List UInt8) (value : Int32) : Prop :=
  Int32.Representable value ∧ ∃ next, writer.put_int32 base value = ok next ∧
    taken next.m_s next.base_state (bytes ++ signed_decimal value.toInt) ∧ next.m_error = writer.m_error

variable {base : Stream σ} {taken : BufferedStream → σ → List UInt8 → Prop} {writer : StreamWriter σ}
  {bytes : List UInt8}

theorem put_taken (htakes : BufferedStream.TakesWrites base taken)
    (htaken : taken writer.m_s writer.base_state bytes) (value : List UInt8) :
    ∃ next, writer.put base value = ok next ∧ taken next.m_s next.base_state (bytes ++ value) ∧
      next.m_error = writer.m_error := by
  obtain ⟨r, next, nextState, hwrite, hr, hnext⟩ := htakes _ _ _ value htaken
  refine ⟨{ m_s := next, base_state := nextState, m_error := writer.m_error }, ?_, hnext, rfl⟩
  simp [put, hwrite, hr]

/-- On a stream that takes all writes every value is printed but the least one. -/
theorem prints_iff (htakes : BufferedStream.TakesWrites base taken)
    (htaken : taken writer.m_s writer.base_state bytes) (value : Int32) :
    Prints base taken writer bytes value ↔ value ≠ Int32.minValue := by
  rw [Prints, Int32.representable_iff]
  refine ⟨And.left, fun hmin => ⟨hmin, ?_⟩⟩
  have hroom : ¬ (decimal value.toInt.natAbs).length > Int32.kMaxStringLength.toNat :=
    Nat.not_lt.mpr (Nat.le_trans (Int32.decimal_length_le_ten value) (by decide))
  obtain ⟨next, hput, hnext, herror⟩ := put_taken htakes htaken (signed_decimal value.toInt)
  refine ⟨next, ?_, hnext, herror⟩
  rw [put_int32, Int32.to_string_of_ne_min hmin, if_neg hroom, bind_ok]
  exact hput

/-- A stream without a write buffer takes all writes if its base stream does. -/
theorem takesWrites_of_accepts {sent : σ → List UInt8 → Prop} (hbase : base.Accepts sent) :
    BufferedStream.TakesWrites base fun s state bytes => s.Unbuffered ∧ sent state bytes := by
  rintro s state bytes data ⟨hs, hsent⟩
  obtain ⟨r, next, hwrite, hr, hnext⟩ := hs.write_accepted hbase hsent data
  exact ⟨r, s, next, hwrite, hr, hs, hnext⟩

/-- A writer over a connection to which nothing was written. -/
def on_wire : StreamWriter Wire where
  m_s := (BufferedStream.init {} [] 0 none 0).2
  base_state := { segments := [] }

theorem prints_minus_twelve :
    Prints Wire.stream (fun s wire bytes => s.Unbuffered ∧ wire.sent = bytes) on_wire [] (-12) :=
  (prints_iff (takesWrites_of_accepts Wire.stream_accepts) ⟨⟨rfl, rfl, rfl⟩, rfl⟩ (-12)).mpr (by decide)

/-- The least value is not printed in digits. -/
theorem prints_no_digits : on_wire.put_int32 Wire.stream Int32.minValue =
    ok { on_wire with base_state := { segments := [], sent := ascii "-./,),(-*,(" } } :=
  rfl

end StreamWriter

end io

end kfw

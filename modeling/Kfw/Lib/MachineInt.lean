import Mathlib

namespace machine

/-- An integer type of C: its width, and whether it is signed. -/
structure IntType where
  signed : Bool
  bits : Nat

namespace IntType

def int32 : IntType := ⟨true, 32⟩
def int64 : IntType := ⟨true, 64⟩
def uint8 : IntType := ⟨false, 8⟩
def uint16 : IntType := ⟨false, 16⟩
def uint32 : IntType := ⟨false, 32⟩
def uint64 : IntType := ⟨false, 64⟩

/-- The least value of the type. -/
def low (t : IntType) : Int := if t.signed then -2 ^ (t.bits - 1) else 0

def Fits (t : IntType) (n : Int) : Prop := t.low ≤ n ∧ n < t.low + 2 ^ t.bits

instance (t : IntType) (n : Int) : Decidable (t.Fits n) := inferInstanceAs (Decidable (_ ∧ _))

/-- The value of the type that a number is converted to. -/
def wrap (t : IntType) (n : Int) : Int := t.low + (n - t.low) % 2 ^ t.bits

theorem wrap_of_fits {t : IntType} {n : Int} (h : t.Fits n) : t.wrap n = n := by
  obtain ⟨hlow, hhigh⟩ := h
  rw [wrap, Int.emod_eq_of_lt (by omega) (by omega)]
  omega

theorem fits_wrap (t : IntType) (n : Int) : t.Fits (t.wrap n) := by
  have hpos : (0 : Int) < 2 ^ t.bits := Int.pow_pos (by decide)
  have hlow := Int.emod_nonneg (n - t.low) (Int.ne_of_gt hpos)
  have hhigh := Int.emod_lt_of_pos (n - t.low) hpos
  constructor
  · rw [wrap]
    omega
  · rw [wrap]
    omega

theorem low_nonpos (t : IntType) : t.low ≤ 0 := by
  rw [low]
  split
  · exact Int.neg_nonpos_of_nonneg (Int.pow_nonneg (by decide))
  · exact Int.le_refl 0

theorem fits_natCast {t : IntType} {n limit : Nat} (hlimit : t.low + 2 ^ t.bits = limit) (h : n < limit) :
    t.Fits n :=
  ⟨Int.le_trans t.low_nonpos (Int.natCast_nonneg n), by rw [hlimit]; exact Int.ofNat_lt.mpr h⟩

theorem int32_fits {n : Nat} (h : n < 2147483648) : int32.Fits n := fits_natCast (by decide) h

theorem int64_fits {n : Nat} (h : n < 9223372036854775808) : int64.Fits n := fits_natCast (by decide) h

theorem int64_fits_of_bounds {x : Int} (hlow : -9223372036854775808 ≤ x) (hhigh : x < 9223372036854775808) :
    int64.Fits x := by
  have hleast : int64.low = -9223372036854775808 := by decide
  have hlimit : int64.low + 2 ^ int64.bits = 9223372036854775808 := by decide
  exact ⟨by rwa [hleast], by rwa [hlimit]⟩

theorem uint8_fits {n : Nat} (h : n < 256) : uint8.Fits n := fits_natCast (by decide) h

theorem uint16_fits {n : Nat} (h : n < 65536) : uint16.Fits n := fits_natCast (by decide) h

theorem uint32_fits {n : Nat} (h : n < 4294967296) : uint32.Fits n := fits_natCast (by decide) h

theorem uint64_fits {n : Nat} (h : n < 18446744073709551616) : uint64.Fits n := fits_natCast (by decide) h

end IntType

/-- A truncating division loses less than one. -/
theorem abs_mul_tdiv_sub_lt (x : Int) {k : Int} (hk : 0 < k) : |k * x.tdiv k - x| < k := by
  have hsplit := Int.mul_tdiv_add_tmod x k
  have hhigh := Int.tmod_lt_of_pos x hk
  have hlow := Int.lt_tmod_of_pos x hk
  rw [abs_lt]
  omega

/-- A value of a C type that was computed, and whether every value on the way to it was
one of its type. -/
structure Num (t : IntType) where
  val : Int
  fits : Bool := true
  in_range : t.Fits val
  deriving DecidableEq

namespace Num

variable {t u : IntType}

/-- A number as a value of the type; `fits` tells about the values it comes from. -/
def of (t : IntType) (n : Int) (fits : Bool := true) : Num t where
  val := t.wrap n
  fits := fits && decide (t.Fits n)
  in_range := t.fits_wrap n

/-- A conversion to another type. -/
def cast (u : IntType) (a : Num t) : Num u := of u a.val a.fits

instance (k : Nat) : OfNat (Num t) k := ⟨of t k⟩

instance : Neg (Num t) := ⟨fun a => of t (-a.val) a.fits⟩
instance : Add (Num t) := ⟨fun a b => of t (a.val + b.val) (a.fits && b.fits)⟩
instance : Sub (Num t) := ⟨fun a b => of t (a.val - b.val) (a.fits && b.fits)⟩
instance : Mul (Num t) := ⟨fun a b => of t (a.val * b.val) (a.fits && b.fits)⟩
-- division truncates, and the remainder has the sign of the dividend
instance : Div (Num t) := ⟨fun a b => of t (a.val.tdiv b.val) (a.fits && b.fits)⟩
instance : Mod (Num t) := ⟨fun a b => of t (a.val.tmod b.val) (a.fits && b.fits)⟩
instance : LT (Num t) := ⟨fun a b => a.val < b.val⟩
instance : LE (Num t) := ⟨fun a b => a.val ≤ b.val⟩

instance (a b : Num t) : Decidable (a < b) := inferInstanceAs (Decidable (a.val < b.val))
instance (a b : Num t) : Decidable (a ≤ b) := inferInstanceAs (Decidable (a.val ≤ b.val))

/-- The value is `n`, and everything on the way to it fitted if `e` says so. -/
structure Is (a : Num t) (n : Nat) (e : Bool) : Prop where
  val_eq : a.val = n
  fits_eq : a.fits = e

variable {a b : Num t} {m n : Nat} {e e' : Bool}

theorem nonneg (ht : t.signed = false) (a : Num t) : 0 ≤ a.val := by
  have hlow := a.in_range.1
  rwa [IntType.low, if_neg (by rw [ht]; decide)] at hlow

theorem is_of_fits {x : Int} (hx : x = n) (h : t.Fits n) : (of t x e).Is n e := by
  subst hx
  exact ⟨IntType.wrap_of_fits h, by rw [of, decide_eq_true h, Bool.and_true]⟩

/-- A negative number as a value of an unsigned type. -/
theorem is_of_neg (ht : t.signed = false) {x : Int} {k : Nat} (hx : x = -k) (hpos : 0 < k) (hle : k ≤ 2 ^ t.bits) :
    (of t x e).Is (2 ^ t.bits - k) false := by
  have hlow : t.low = 0 := by rw [IntType.low, if_neg (by rw [ht]; decide)]
  have hfits : ¬ t.Fits x := by
    rw [IntType.Fits, hlow]
    omega
  have hle' : (k : Int) ≤ 2 ^ t.bits := by exact_mod_cast hle
  constructor
  · change t.wrap x = _
    rw [IntType.wrap, hlow, hx, Int.sub_zero, Int.zero_add, Nat.cast_sub hle, Nat.cast_pow, Nat.cast_ofNat,
      ← Int.add_emod_right, Int.emod_eq_of_lt]
    · omega
    · omega
    · omega
  · rw [of, decide_eq_false hfits, Bool.and_false]

/-- A constant has the value it is written as. -/
theorem is_ofNat (k : Nat) (h : t.Fits k) : (OfNat.ofNat k : Num t).Is k true := is_of_fits rfl h

namespace Is

theorem cast (ha : a.Is n e) (h : u.Fits n) : (a.cast u).Is n e := by
  rw [Num.cast, ha.fits_eq]
  exact is_of_fits ha.val_eq h

theorem add (ha : a.Is m e) (hb : b.Is n e') (h : t.Fits (m + n : Nat)) : (a + b).Is (m + n) (e && e') := by
  rw [← ha.fits_eq, ← hb.fits_eq]
  exact is_of_fits (by rw [ha.val_eq, hb.val_eq, Nat.cast_add]) h

theorem sub (ha : a.Is m e) (hb : b.Is n e') (hle : n ≤ m) (h : t.Fits (m - n : Nat)) :
    (a - b).Is (m - n) (e && e') := by
  rw [← ha.fits_eq, ← hb.fits_eq]
  exact is_of_fits (by rw [ha.val_eq, hb.val_eq, Nat.cast_sub hle]) h

/-- A subtraction that is written as the addition of a negative number. -/
theorem add_neg (ha : a.Is m e) (hb : b.Is n e') (hle : n ≤ m) (hneg : t.Fits (-n)) (h : t.Fits (m - n : Nat)) :
    (a + -b).Is (m - n) (e && e') := by
  have hval : (-b).val = -n := (congrArg (fun x => t.wrap (-x)) hb.val_eq).trans (IntType.wrap_of_fits hneg)
  have hfits : (-b).fits = e' := by
    change (b.fits && decide (t.Fits (-b.val))) = e'
    rw [hb.val_eq, hb.fits_eq, decide_eq_true hneg, Bool.and_true]
  rw [← ha.fits_eq, ← hfits]
  exact is_of_fits (by rw [ha.val_eq, hval, Nat.cast_sub hle]; rfl) h

theorem mul (ha : a.Is m e) (hb : b.Is n e') (h : t.Fits (m * n : Nat)) : (a * b).Is (m * n) (e && e') := by
  rw [← ha.fits_eq, ← hb.fits_eq]
  exact is_of_fits (by rw [ha.val_eq, hb.val_eq, Nat.cast_mul]) h

theorem div (ha : a.Is m e) (hb : b.Is n e') (h : t.Fits (m / n : Nat)) : (a / b).Is (m / n) (e && e') := by
  rw [← ha.fits_eq, ← hb.fits_eq]
  exact is_of_fits (by rw [ha.val_eq, hb.val_eq, Int.ofNat_tdiv]) h

theorem mod (ha : a.Is m e) (hb : b.Is n e') (h : t.Fits (m % n : Nat)) : (a % b).Is (m % n) (e && e') := by
  rw [← ha.fits_eq, ← hb.fits_eq]
  exact is_of_fits (by rw [ha.val_eq, hb.val_eq, Int.ofNat_tmod]) h

theorem lt_iff (ha : a.Is m e) (hb : b.Is n e') : a < b ↔ m < n := by
  change a.val < b.val ↔ _
  rw [ha.val_eq, hb.val_eq, Nat.cast_lt]

theorem le_iff (ha : a.Is m e) (hb : b.Is n e') : a ≤ b ↔ m ≤ n := by
  change a.val ≤ b.val ↔ _
  rw [ha.val_eq, hb.val_eq, Nat.cast_le]

end Is

/-- The value is `x`, and everything on the way to it fitted. -/
structure Exact (a : Num t) (x : Int) : Prop where
  val_eq : a.val = x
  fits_eq : a.fits = true

theorem exact_of {x : Int} (h : t.Fits x) : (of t x).Exact x :=
  ⟨IntType.wrap_of_fits h, by rw [of, decide_eq_true h, Bool.and_true]⟩

theorem exact_ofNat (k : Nat) (h : t.Fits k) : (OfNat.ofNat k : Num t).Exact k := exact_of h

theorem Is.exact (h : a.Is n true) : a.Exact n := ⟨h.val_eq, h.fits_eq⟩

namespace Exact

variable {x y : Int}

theorem of_fits {z : Int} (ha : a.Exact x) (hb : b.Exact y) (h : t.Fits z) : (of t z (a.fits && b.fits)).Exact z := by
  rw [ha.fits_eq, hb.fits_eq]
  exact exact_of h

theorem add (ha : a.Exact x) (hb : b.Exact y) (h : t.Fits (x + y)) : (a + b).Exact (x + y) := by
  rw [← ha.val_eq, ← hb.val_eq] at h ⊢
  exact of_fits ha hb h

theorem sub (ha : a.Exact x) (hb : b.Exact y) (h : t.Fits (x - y)) : (a - b).Exact (x - y) := by
  rw [← ha.val_eq, ← hb.val_eq] at h ⊢
  exact of_fits ha hb h

theorem mul (ha : a.Exact x) (hb : b.Exact y) (h : t.Fits (x * y)) : (a * b).Exact (x * y) := by
  rw [← ha.val_eq, ← hb.val_eq] at h ⊢
  exact of_fits ha hb h

theorem div (ha : a.Exact x) (hb : b.Exact y) (h : t.Fits (x.tdiv y)) : (a / b).Exact (x.tdiv y) := by
  rw [← ha.val_eq, ← hb.val_eq] at h ⊢
  exact of_fits ha hb h

end Exact

end Num

end machine

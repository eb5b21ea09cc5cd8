import Mathlib.Algebra.Order.Field.Power
import Mathlib.Data.Int.Log
import Mathlib.Data.Rat.Floor

/-!
# Binary floating-point formats

The rounding of IEEE 754 to the nearest number of a format, ties to the even
one, on exact rationals.  A number that rounds beyond the range becomes infinite;
below the smallest normal number the unit in the last place stays what it is
there.  The two zeros are one, and nothing here makes a NaN.
-/

namespace LidarPublisher.Lib.Binary

/-- What a format can hold. -/
inductive Value
  | finite (q : Rat)
  | infinite (negative : Bool)
  deriving DecidableEq, Repr

instance (n : Nat) : OfNat Value n := ⟨.finite n⟩

/-- A format by the bits of its significand, the exponent of its smallest number
and the first power of two beyond its range. -/
structure Format where
  precision : Nat
  minExp : Int
  maxExp : Int

/-- `float` -/
def binary32 : Format := { precision := 24, minExp := -149, maxExp := 128 }

/-- `double` -/
def binary64 : Format := { precision := 53, minExp := -1074, maxExp := 1024 }

/-- The nearest integer, the even one of two. -/
def roundEven (q : Rat) : Int :=
  let n := ⌊q⌋
  if q - n < 1 / 2 then n
  else if 1 / 2 < q - n then n + 1
  else if n % 2 = 0 then n
  else n + 1

/-- The exponent of the unit in the last place of numbers of the size of `q`. -/
def Format.unitExp (f : Format) (q : Rat) : Int :=
  max f.minExp (Int.log 2 |q| + 1 - f.precision)

/-- Rounding to a format. -/
def Format.round (f : Format) (q : Rat) : Value :=
  let unit : Rat := 2 ^ f.unitExp q
  let x := roundEven (q / unit) * unit
  if 2 ^ f.maxExp ≤ |x| then .infinite (x < 0) else .finite x

/-- Conversion of a value of another format. -/
def Format.convert (f : Format) : Value → Value
  | .finite q => f.round q
  | .infinite negative => .infinite negative

/-- `0.1` is neither a `float` nor a `double`. -/
example : binary32.round (1 / 10) = .finite (13421773 / 2 ^ 27) ∧
    binary64.round (1 / 10) = .finite (3602879701896397 / 2 ^ 55) := by
  decide +kernel

/-! ## Numbers that are exact -/

theorem roundEven_intCast (n : Int) : roundEven (n : Rat) = n := by
  have hfloor : (n : Rat) - ⌊(n : Rat)⌋ < 1 / 2 := by
    rw [Int.floor_intCast, sub_self]
    norm_num
  unfold roundEven
  dsimp only
  rw [if_pos hfloor, Int.floor_intCast]

/-- A multiple of its unit in the last place is rounded to itself. -/
theorem Format.round_of_multiple {f : Format} {q : Rat} {m : Int}
    (hq : q = m * 2 ^ f.unitExp q) (hrange : |q| < 2 ^ f.maxExp) :
    f.round q = .finite q := by
  have hunit : (2 : Rat) ^ f.unitExp q ≠ 0 := (zpow_pos (by norm_num) _).ne'
  have hround : roundEven (q / 2 ^ f.unitExp q) = m := by
    rw [(div_eq_iff hunit).mpr hq, roundEven_intCast]
  unfold Format.round
  dsimp only
  rw [hround, ← hq, if_neg (not_le.mpr hrange)]

/-- A unit in the last place above 1 needs more bits than the format has. -/
theorem Format.unitExp_of_pos {f : Format} (hmin : f.minExp ≤ 0)
    (hprec : 0 < f.precision) {q : Rat} (hq : |q| ≤ 2 ^ f.precision)
    (hpos : 0 < f.unitExp q) : |q| = 2 ^ f.precision ∧ f.unitExp q = 1 := by
  have hlog : (f.precision : Int) ≤ Int.log 2 |q| := by
    unfold unitExp at hpos
    omega
  have hq0 : 0 < |q| := by
    refine lt_of_le_of_ne (abs_nonneg q) fun h0 => ?_
    rw [← h0, Int.log_zero_right] at hlog
    omega
  have hlow : (2 : Rat) ^ Int.log 2 |q| ≤ |q| := by
    exact_mod_cast Int.zpow_log_le_self (b := 2) (by norm_num) hq0
  have hpow : (2 : Rat) ^ f.precision ≤ 2 ^ Int.log 2 |q| := by
    rw [← zpow_natCast]
    exact zpow_le_zpow_right₀ (by norm_num) hlog
  have heq : |q| = 2 ^ f.precision := le_antisymm hq (hpow.trans hlow)
  have hexact : Int.log 2 |q| = f.precision := by
    rw [heq, ← zpow_natCast]
    exact Int.log_zpow (b := 2) (by norm_num) _
  refine ⟨heq, ?_⟩
  unfold unitExp
  omega

/-- Integers of up to `precision` bits are exact. -/
theorem Format.round_intCast {f : Format} (hmin : f.minExp ≤ 0)
    (hprec : 0 < f.precision) (hmax : (f.precision : Int) < f.maxExp) {n : Int}
    (hn : |(n : Rat)| ≤ 2 ^ f.precision) : f.round n = .finite n := by
  have hrange : |(n : Rat)| < 2 ^ f.maxExp := by
    refine lt_of_le_of_lt hn ?_
    rw [← zpow_natCast]
    exact zpow_lt_zpow_right₀ (by norm_num) hmax
  rcases lt_or_ge 0 (f.unitExp n) with hpos | hle
  · rcases unitExp_of_pos hmin hprec hn hpos with ⟨heq, hunit⟩
    -- the one integer with a unit of 2 is a power of two
    have heven : (2 : Int) ∣ n := by
      have habs : |n| = 2 ^ f.precision := by exact_mod_cast heq
      rw [← dvd_abs, habs]
      exact dvd_pow_self 2 hprec.ne'
    rcases heven with ⟨m, rfl⟩
    refine round_of_multiple (m := m) ?_ hrange
    rw [hunit]
    push_cast
    ring
  · rcases Int.eq_ofNat_of_zero_le (Int.neg_nonneg_of_nonpos hle) with ⟨k, hk⟩
    refine round_of_multiple (m := n * 2 ^ k) ?_ hrange
    have hunit : f.unitExp n = -(k : Int) := by omega
    rw [hunit, zpow_neg, zpow_natCast]
    push_cast
    field_simp

end LidarPublisher.Lib.Binary

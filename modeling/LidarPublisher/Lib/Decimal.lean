import LidarPublisher.Lib.Bytes
import Mathlib.Data.List.Induction

/-!
# Decimal numerals and the order of texts

Printed numbers are byte strings.  `decimal` prints without padding and reads
back by `numeral`; `fixed` prints a zero-padded field of known width, and on
such fields the bytewise order of texts is the order of numbers.
-/

namespace LidarPublisher.Lib.Decimal

/-! ## Digits -/

/-- `isdigit` in the C locale. -/
def isDigit (b : UInt8) : Bool := 0x30 ≤ b && b ≤ 0x39

/-- The number a digit stands for. -/
def digitValue (b : UInt8) : Nat := b.toNat - 48

/-- The digit that stands for `d < 10`. -/
def digit (d : Nat) : UInt8 := (48 + d).toUInt8

theorem isDigit_iff (b : UInt8) :
    isDigit b = true ↔ 48 ≤ b.toNat ∧ b.toNat ≤ 57 := by
  simp [isDigit, UInt8.le_iff_toNat_le]

theorem toNat_digit {d : Nat} (hd : d < 10) : (digit d).toNat = 48 + d := by
  rw [digit, Nat.toUInt8_eq, UInt8.toNat_ofNat']
  omega

theorem isDigit_digit {d : Nat} (hd : d < 10) : isDigit (digit d) = true := by
  rw [isDigit_iff, toNat_digit hd]
  omega

theorem digit_lt_digit_iff {d e : Nat} (hd : d < 10) (he : e < 10) :
    digit d < digit e ↔ d < e := by
  rw [UInt8.lt_iff_toNat_lt, toNat_digit hd, toNat_digit he]
  omega

theorem digit_inj {d e : Nat} (hd : d < 10) (he : e < 10) :
    digit d = digit e ↔ d = e := by
  rw [← UInt8.toNat_inj, toNat_digit hd, toNat_digit he]
  omega

/-! ## Numerals without padding -/

/-- The value of a string of digits. -/
def numeral (ds : List UInt8) : Nat :=
  ds.foldl (fun acc b => 10 * acc + digitValue b) 0

/-- `%d` for a non-negative number. -/
def decimal (n : Nat) : List UInt8 :=
  (Nat.toDigits 10 n).map fun c => c.toNat.toUInt8

private theorem toNat_of_isDigit {c : Char} (hc : c.isDigit = true) :
    48 ≤ c.toNat ∧ c.toNat ≤ 57 := by
  simp only [Char.isDigit, ge_iff_le, Bool.and_eq_true, decide_eq_true_eq,
    UInt32.le_iff_toNat_le] at hc
  exact hc

theorem isDigit_of_mem_decimal {n : Nat} {b : UInt8} (hb : b ∈ decimal n) :
    isDigit b = true := by
  obtain ⟨c, hc, rfl⟩ := List.mem_map.mp hb
  have hrange := toNat_of_isDigit
    (Nat.isDigit_of_mem_toDigits (by decide) (by decide) hc)
  rw [isDigit_iff, Nat.toUInt8_eq, UInt8.toNat_ofNat']
  omega

theorem decimal_ne_nil (n : Nat) : decimal n ≠ [] := by
  simp [decimal]

/-- Printing and reading back. -/
@[simp] theorem numeral_decimal (n : Nat) : numeral (decimal n) = n := by
  have hfold : ∀ (cs : List Char) (acc : Nat), (∀ c ∈ cs, c.isDigit = true) →
      (cs.map fun c => c.toNat.toUInt8).foldl
          (fun acc b => 10 * acc + digitValue b) acc =
        Nat.ofDigitChars 10 cs acc := by
    intro cs
    induction cs with
    | nil => intro acc _; simp
    | cons c cs ih =>
        intro acc hcs
        have hrange := toNat_of_isDigit (hcs c (by simp))
        have hvalue : digitValue c.toNat.toUInt8 = c.toNat - '0'.toNat := by
          rw [digitValue, Nat.toUInt8_eq, UInt8.toNat_ofNat',
            Nat.mod_eq_of_lt (by omega)]
          rfl
        rw [List.map_cons, List.foldl_cons, Nat.ofDigitChars_cons, hvalue,
          ih _ fun d hd => hcs d (List.mem_cons_of_mem _ hd)]
  unfold numeral decimal
  rw [hfold _ 0 fun c hc => Nat.isDigit_of_mem_toDigits (by decide) (by decide) hc,
    Nat.ofDigitChars_toDigits (by decide) (by decide)]

/-! ## The size of a numeral -/

theorem numeral_concat (ds : List UInt8) (b : UInt8) :
    numeral (ds ++ [b]) = 10 * numeral ds + digitValue b :=
  List.foldl_concat _ _ _ _

theorem numeral_cons (b : UInt8) (ds : List UInt8) :
    numeral (b :: ds) = digitValue b * 10 ^ ds.length + numeral ds := by
  induction ds using List.reverseRecOn with
  | nil => simp [numeral]
  | append_singleton ds c ih =>
      rw [← List.cons_append, numeral_concat, numeral_concat, ih,
        List.length_append, List.length_singleton, Nat.pow_succ, Nat.mul_add,
        Nat.mul_left_comm, Nat.mul_comm 10 (10 ^ ds.length), Nat.add_assoc]

theorem digitValue_le {b : UInt8} (hb : isDigit b = true) : digitValue b ≤ 9 := by
  have hrange := (isDigit_iff b).mp hb
  unfold digitValue
  omega

theorem numeral_lt {ds : List UInt8} (h : ∀ b ∈ ds, isDigit b = true) :
    numeral ds < 10 ^ ds.length := by
  induction ds with
  | nil => decide
  | cons b ds ih =>
      have hb := digitValue_le (h b List.mem_cons_self)
      have hds := ih fun c hc => h c (List.mem_cons_of_mem _ hc)
      have hmul := Nat.mul_le_mul_right (10 ^ ds.length) hb
      rw [numeral_cons, List.length_cons, Nat.pow_succ]
      omega

/-- A first digit other than zero counts. -/
theorem le_numeral {b : UInt8} (hb : isDigit b = true) (h0 : b ≠ 0x30)
    (ds : List UInt8) : 10 ^ ds.length ≤ numeral (b :: ds) := by
  have hpos : 1 ≤ digitValue b := by
    have hrange := (isDigit_iff b).mp hb
    have hne : b.toNat ≠ 48 := fun heq => h0 (UInt8.toNat_inj.mp heq)
    unfold digitValue
    omega
  have hmul := Nat.mul_le_mul_right (10 ^ ds.length) hpos
  rw [numeral_cons]
  omega

/-- Zeros in front do not count. -/
theorem numeral_dropWhile (ds : List UInt8) :
    numeral (ds.dropWhile fun b => b = 0x30) = numeral ds := by
  induction ds with
  | nil => rfl
  | cons b ds ih =>
      by_cases hb : b = 0x30
      · rw [List.dropWhile_cons_of_pos (by simp [hb]), ih, hb, numeral_cons]
        simp [digitValue]
      · rw [List.dropWhile_cons_of_neg (by simp [hb])]

/-! ## Fixed-width fields -/

/-- `n` as exactly `w` digits, zero padded (`%02d`, `%04d`). -/
def fixed : (w n : Nat) → List UInt8
  | 0, _ => []
  | w + 1, n => digit (n / 10 ^ w % 10) :: fixed w (n % 10 ^ w)

@[simp] theorem length_fixed (w n : Nat) : (fixed w n).length = w := by
  induction w generalizing n with
  | zero => rfl
  | succ w ih => rw [fixed, List.length_cons, ih]

theorem isDigit_of_mem_fixed {w n : Nat} {b : UInt8} (hb : b ∈ fixed w n) :
    isDigit b = true := by
  induction w generalizing n with
  | zero => simp [fixed] at hb
  | succ w ih =>
      rcases List.mem_cons.mp hb with rfl | hb
      · exact isDigit_digit (Nat.mod_lt _ (by decide))
      · exact ih hb

/-- Numbers compare by quotient, then by remainder. -/
private theorem lt_iff_div_mod (n m k : Nat) (hk : 0 < k) :
    n < m ↔ n / k < m / k ∨ n / k = m / k ∧ n % k < m % k := by
  have hn := Nat.div_add_mod n k
  have hm := Nat.div_add_mod m k
  have hnlt := Nat.mod_lt n hk
  have hmlt := Nat.mod_lt m hk
  rcases Nat.lt_trichotomy (n / k) (m / k) with hlt | heq | hgt
  · have hmul : k * (n / k + 1) ≤ k * (m / k) := Nat.mul_le_mul_left k hlt
    rw [Nat.mul_add] at hmul
    constructor
    · exact fun _ => Or.inl hlt
    · intro _
      omega
  · rw [heq] at hn ⊢
    constructor
    · intro _
      exact Or.inr ⟨rfl, by omega⟩
    · rintro (hlt | ⟨-, hlt⟩)
      · exact absurd hlt (Nat.lt_irrefl _)
      · omega
  · have hmul : k * (m / k + 1) ≤ k * (n / k) := Nat.mul_le_mul_left k hgt
    rw [Nat.mul_add] at hmul
    refine iff_of_false (by omega) ?_
    rintro (hlt | ⟨heq, -⟩) <;> omega

private theorem div_pow_lt_ten {n w : Nat} (hn : n < 10 ^ (w + 1)) :
    n / 10 ^ w < 10 := by
  rw [Nat.div_lt_iff_lt_mul (Nat.pow_pos (by decide))]
  rwa [Nat.pow_succ, Nat.mul_comm] at hn

/-- On fields of one width the bytewise order is the order of numbers. -/
theorem fixed_lt_fixed_iff {w n m : Nat} (hn : n < 10 ^ w) (hm : m < 10 ^ w) :
    fixed w n < fixed w m ↔ n < m := by
  induction w generalizing n m with
  | zero => simp_all [fixed]
  | succ w ih =>
      have hpow : 0 < 10 ^ w := Nat.pow_pos (by decide)
      have hdn := div_pow_lt_ten hn
      have hdm := div_pow_lt_ten hm
      rw [fixed, fixed, Nat.mod_eq_of_lt hdn, Nat.mod_eq_of_lt hdm,
        List.cons_lt_cons_iff, digit_lt_digit_iff hdn hdm, digit_inj hdn hdm,
        ih (Nat.mod_lt n hpow) (Nat.mod_lt m hpow),
        ← lt_iff_div_mod n m (10 ^ w) hpow]

/-- On fields of one width the text determines the number. -/
theorem fixed_inj {w n m : Nat} (hn : n < 10 ^ w) (hm : m < 10 ^ w) :
    fixed w n = fixed w m ↔ n = m := by
  constructor
  · intro heq
    have hnm : ¬n < m := by
      rw [← fixed_lt_fixed_iff hn hm, heq]
      exact List.lt_irrefl _
    have hmn : ¬m < n := by
      rw [← fixed_lt_fixed_iff hm hn, heq]
      exact List.lt_irrefl _
    omega
  · rintro rfl
    rfl

/-! ## The order of concatenated texts -/

section Lex

variable {α : Type*} [LT α]

/-- A common beginning does not matter. -/
theorem append_lt_append_left_iff [Std.Irrefl (α := α) (· < ·)]
    (u v w : List α) : u ++ v < u ++ w ↔ v < w := by
  induction u with
  | nil => rfl
  | cons a u ih => rw [List.cons_append, List.cons_append,
      List.cons_lt_cons_self, ih]

/-- Beginnings of one length decide, unless they are equal. -/
theorem append_lt_append_iff {u v : List α} (hlen : u.length = v.length)
    (x y : List α) : u ++ x < v ++ y ↔ u < v ∨ u = v ∧ x < y := by
  induction u generalizing v with
  | nil =>
      obtain rfl : v = [] := List.length_eq_zero_iff.mp hlen.symm
      simp
  | cons a u ih =>
      cases v with
      | nil => simp at hlen
      | cons b v =>
          rw [List.cons_append, List.cons_append, List.cons_lt_cons_iff,
            List.cons_lt_cons_iff, ih (by simpa using hlen), List.cons.injEq]
          constructor
          · rintro (h | ⟨rfl, h | ⟨rfl, h⟩⟩)
            · exact Or.inl (Or.inl h)
            · exact Or.inl (Or.inr ⟨rfl, h⟩)
            · exact Or.inr ⟨⟨rfl, rfl⟩, h⟩
          · rintro ((h | ⟨rfl, h⟩) | ⟨⟨rfl, rfl⟩, h⟩)
            · exact Or.inl h
            · exact Or.inr ⟨rfl, Or.inl h⟩
            · exact Or.inr ⟨rfl, Or.inr ⟨rfl, h⟩⟩

end Lex

end LidarPublisher.Lib.Decimal

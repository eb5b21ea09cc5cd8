import LidarPublisher.Lib.Decimal
import Mathlib.Logic.Function.Iterate

/-!
# Clock readings and their texts

`verifyToken` reads the local time twice: the first reading is compared with
the `expiration` column, the second one, moved on by 25 minutes field by field,
is written to it.  Both go through `strftime` and are compared as texts.
-/

namespace LidarPublisher.Token.Clock

open LidarPublisher.Lib.Bytes
open LidarPublisher.Lib.Decimal

/-- The fields of `struct tm` that `strftime` prints, with `year` and `mon` as
they are printed. -/
structure Tm where
  year : Nat
  mon : Nat
  mday : Nat
  hour : Nat
  min : Nat
  sec : Nat
  deriving DecidableEq, Repr

/-- `TIME_STRING_LENGTH`, the size of `buffer`. -/
abbrev timeStringLength : Nat := 20

/-- `strftime(buffer, 20, "%Y-%m-%d %H:%M:%S", tm)`. -/
def strftime (t : Tm) : List UInt8 :=
  fixed 4 t.year ++ (ascii "-" ++ (fixed 2 t.mon ++ (ascii "-" ++
    (fixed 2 t.mday ++ (ascii " " ++ (fixed 2 t.hour ++ (ascii ":" ++
      (fixed 2 t.min ++ (ascii ":" ++ fixed 2 t.sec)))))))))

/-- The body of the loop that moves the time on by a minute. -/
def renewStep (t : Tm) : Tm :=
  if t.min = 59 then { t with min := 0, hour := t.hour + 1 }
  else { t with min := t.min + 1 }

/-- The loop `for(int i = 0; i < 25; i++)`; hours are not carried into days. -/
def renew (t : Tm) : Tm := renewStep^[25] t

/-! ## Calendar times -/

def isLeap (year : Nat) : Bool :=
  year % 4 = 0 && (year % 100 ≠ 0 || year % 400 = 0)

def daysInMonth (year mon : Nat) : Nat :=
  if mon = 2 then if isLeap year then 29 else 28
  else if mon = 4 ∨ mon = 6 ∨ mon = 9 ∨ mon = 11 then 30
  else 31

/-- A clock reading: what `localtime` returns for a four-digit year. -/
structure LocalTime extends Tm where
  year_valid : 1000 ≤ year ∧ year ≤ 9999
  mon_valid : 1 ≤ mon ∧ mon ≤ 12
  mday_valid : 1 ≤ mday ∧ mday ≤ daysInMonth year mon
  hour_valid : hour ≤ 23
  min_valid : min ≤ 59
  sec_valid : sec ≤ 60
  deriving DecidableEq, Repr

/-- The fields in order of weight. -/
def Tm.key (t : Tm) : List Nat := [t.year, t.mon, t.mday, t.hour, t.min, t.sec]

theorem Tm.key_inj {a b : Tm} : a.key = b.key ↔ a = b := by
  cases a
  cases b
  simp [Tm.key]

theorem LocalTime.toTm_inj {a b : LocalTime} : a.toTm = b.toTm ↔ a = b := by
  cases a
  cases b
  simp

/-- Calendar order. -/
instance : LT Tm := ⟨fun a b => a.key < b.key⟩

instance : LE Tm := ⟨fun a b => ¬b.key < a.key⟩

instance : LE LocalTime := ⟨fun a b => a.toTm ≤ b.toTm⟩

instance (a b : Tm) : Decidable (a ≤ b) :=
  inferInstanceAs (Decidable (¬b.key < a.key))

instance (a b : LocalTime) : Decidable (a ≤ b) :=
  inferInstanceAs (Decidable (a.toTm ≤ b.toTm))

theorem LocalTime.le_refl (a : LocalTime) : a ≤ a := List.lt_irrefl a.key

theorem LocalTime.le_trans {a b c : LocalTime} (hab : a ≤ b) (hbc : b ≤ c) :
    a ≤ c :=
  show ¬c.key < a.key from List.le_trans hab hbc

/-- The clock does not go back along a list of readings. -/
def Chronological (ts : List LocalTime) : Prop := ts.Pairwise (· ≤ ·)

instance (ts : List LocalTime) : Decidable (Chronological ts) :=
  inferInstanceAs (Decidable (List.Pairwise _ _))

/-- Every field has the width `strftime` gives it. -/
structure Tm.Printable (t : Tm) : Prop where
  year : t.year < 10 ^ 4
  mon : t.mon < 10 ^ 2
  mday : t.mday < 10 ^ 2
  hour : t.hour < 10 ^ 2
  min : t.min < 10 ^ 2
  sec : t.sec < 10 ^ 2

theorem daysInMonth_le (year mon : Nat) : daysInMonth year mon ≤ 31 := by
  unfold daysInMonth
  split
  · split <;> omega
  · split <;> omega

theorem LocalTime.printable (t : LocalTime) : t.toTm.Printable where
  year := by have h := t.year_valid; omega
  mon := by have h := t.mon_valid; omega
  mday := by
    have h := t.mday_valid
    have hdays := daysInMonth_le t.year t.mon
    omega
  hour := by have h := t.hour_valid; omega
  min := by have h := t.min_valid; omega
  sec := by have h := t.sec_valid; omega

/-! ## The texts -/

theorem length_strftime (t : Tm) : (strftime t).length = 19 := by
  simp [strftime, ascii]

/-- Time texts are made of digits, dashes, a space and colons. -/
theorem mem_strftime {t : Tm} {b : UInt8} (hb : b ∈ strftime t) :
    isDigit b = true ∨ b ∈ ascii "- :" := by
  simp only [strftime, List.mem_append] at hb
  rcases hb with h | h | h | h | h | h | h | h | h | h | h
  all_goals first
    | exact Or.inl (isDigit_of_mem_fixed h)
    | obtain rfl := List.mem_singleton.mp h
      exact Or.inr (by decide)

/-- One field of a text decides, or the rest does. -/
private theorem field_lt_iff {w n m : Nat} (hn : n < 10 ^ w) (hm : m < 10 ^ w)
    (x y : List UInt8) :
    fixed w n ++ x < fixed w m ++ y ↔ n < m ∨ n = m ∧ x < y := by
  rw [append_lt_append_iff (by simp), fixed_lt_fixed_iff hn hm, fixed_inj hn hm]

/-- **Time texts order like times.** -/
theorem strftime_lt_iff {a b : Tm} (ha : a.Printable) (hb : b.Printable) :
    strftime a < strftime b ↔ a < b := by
  change _ ↔ a.key < b.key
  unfold strftime Tm.key
  rw [field_lt_iff ha.year hb.year, append_lt_append_left_iff,
    field_lt_iff ha.mon hb.mon, append_lt_append_left_iff,
    field_lt_iff ha.mday hb.mday, append_lt_append_left_iff,
    field_lt_iff ha.hour hb.hour, append_lt_append_left_iff,
    field_lt_iff ha.min hb.min, append_lt_append_left_iff,
    fixed_lt_fixed_iff ha.sec hb.sec]
  simp only [List.cons_lt_cons_iff, List.not_lt_nil, and_false, or_false]

theorem strftime_le_iff {a b : Tm} (ha : a.Printable) (hb : b.Printable) :
    strftime a ≤ strftime b ↔ a ≤ b :=
  not_congr (strftime_lt_iff hb ha)

theorem LocalTime.strftime_le {a b : LocalTime} (h : a ≤ b) :
    strftime a.toTm ≤ strftime b.toTm :=
  (strftime_le_iff a.printable b.printable).mpr h

/-- Two readings of which neither precedes the other are the same. -/
theorem Tm.eq_of_not_lt {a b : Tm} (hab : ¬a < b) (hba : ¬b < a) : a = b :=
  Tm.key_inj.mp (List.le_antisymm hba hab)

theorem strftime_inj {a b : Tm} (ha : a.Printable) (hb : b.Printable) :
    strftime a = strftime b ↔ a = b := by
  constructor
  · intro h
    refine Tm.eq_of_not_lt (fun hlt => ?_) (fun hlt => ?_)
    · have htext := (strftime_lt_iff ha hb).mpr hlt
      rw [h] at htext
      exact List.lt_irrefl _ htext
    · have htext := (strftime_lt_iff hb ha).mpr hlt
      rw [h] at htext
      exact List.lt_irrefl _ htext
  · intro h
    rw [h]

/-- **An order embedding.**  The text of a clock reading fills the buffer with
its NUL, and says which of two readings is the earlier one. -/
theorem strftime_order (a b : LocalTime) :
    (strftime a.toTm < strftime b.toTm ↔ a.toTm < b.toTm) ∧
      (strftime a.toTm = strftime b.toTm ↔ a = b) ∧
      (strftime a.toTm).length = 19 ∧
      (strftime a.toTm).length + 1 ≤ timeStringLength := by
  refine ⟨strftime_lt_iff a.printable b.printable, ?_, length_strftime a.toTm, ?_⟩
  · rw [strftime_inj a.printable b.printable, LocalTime.toTm_inj]
  · rw [length_strftime]

/-! ## The renewal -/

/-- Up to 60 iterations carry at most one hour. -/
private theorem iterate_renewStep (t : Tm) (ht : t.min ≤ 59) (n : Nat)
    (hn : n ≤ 60) :
    renewStep^[n] t =
      if t.min + n < 60 then { t with min := t.min + n }
      else { t with min := t.min + n - 60, hour := t.hour + 1 } := by
  induction n with
  | zero => rw [if_pos (by omega)]; rfl
  | succ n ih =>
      rw [Function.iterate_succ_apply', ih (by omega)]
      rcases Nat.lt_trichotomy (t.min + n) 59 with hlt | heq | hgt
      · rw [if_pos (by omega), if_pos (by omega), renewStep,
          if_neg (by dsimp only; omega)]
        simp [Nat.add_assoc]
      · rw [if_pos (by omega), if_neg (by omega), renewStep,
          if_pos (by dsimp only; omega)]
        simp only [Tm.mk.injEq, true_and, and_true]
        omega
      · rw [if_neg (by omega), if_neg (by omega), renewStep,
          if_neg (by dsimp only; omega)]
        simp only [Tm.mk.injEq, true_and, and_true]
        omega

/-- The loop in closed form. -/
theorem renew_eq (t : LocalTime) :
    renew t.toTm =
      if t.min + 25 < 60 then { t.toTm with min := t.min + 25 }
      else { t.toTm with min := t.min + 25 - 60, hour := t.hour + 1 } :=
  iterate_renewStep t.toTm t.min_valid 25 (by omega)

theorem renew_printable (t : LocalTime) : (renew t.toTm).Printable := by
  have h := t.printable
  have hmin := t.min_valid
  have hhour := t.hour_valid
  rw [renew_eq]
  split
  · exact { h with min := by dsimp only; omega }
  · exact { h with min := by dsimp only; omega, hour := by dsimp only; omega }

theorem lt_renew (t : LocalTime) : t.toTm < renew t.toTm := by
  show t.key < (renew t.toTm).key
  rw [renew_eq]
  split <;> simp [Tm.key, List.cons_lt_cons_iff]

/-- A renewal lies behind every reading up to its own. -/
theorem strftime_lt_renew {a b : LocalTime} (h : a ≤ b) :
    strftime a.toTm < strftime (renew b.toTm) :=
  List.lt_of_le_of_lt (LocalTime.strftime_le h)
    ((strftime_lt_iff b.printable (renew_printable b)).mpr (lt_renew b))

end LidarPublisher.Token.Clock

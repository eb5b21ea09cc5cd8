import LidarPublisher.Lib.Binary
import LidarPublisher.Lib.Bytes
import LidarPublisher.Lib.Decimal

/-!
# Formatted input from a byte stream

The extractions `operator>>` of C++11 for `int`, `double` and `char` in the C
locale, with `skipws` and decimal base.  An extraction that finds no number
stores 0, one that finds a number out of range stores the limit; both set the
fail state, after which extractions leave their targets alone.  A finite double
is the rational it stands for.
-/

namespace LidarPublisher.Lib.Stream

open LidarPublisher.Lib.Binary
open LidarPublisher.Lib.Bytes
open LidarPublisher.Lib.Decimal

/-! ## Streams -/

/-- A stream: the bytes not yet extracted and its state bits. -/
structure IStream where
  rest : List UInt8
  eof : Bool
  fail : Bool
  deriving DecidableEq, Repr

/-- A stream just constructed over some bytes. -/
def IStream.on (bs : List UInt8) : IStream :=
  { rest := bs, eof := false, fail := false }

/-- `std::ios::good`. -/
def IStream.good (s : IStream) : Bool := !s.eof && !s.fail

/-- `istream::sentry`: skip white space, and say whether to go on. -/
def IStream.sentry (s : IStream) : Bool × IStream :=
  if s.good then
    match s.rest.dropWhile isSpace with
    | [] => (false, { rest := [], eof := true, fail := true })
    | b :: bs => (true, { s with rest := b :: bs })
  else (false, { s with fail := true })

theorem IStream.sentry_on_cons {b : UInt8} (hb : isSpace b = false)
    (bs : List UInt8) : (on (b :: bs)).sentry = (true, on (b :: bs)) := by
  simp [sentry, on, good, hb]

theorem IStream.sentry_of_fail {s : IStream} (hs : s.fail = true) :
    s.sentry = (false, s) := by
  cases s
  simp_all [sentry, good]

/-! ## Characters -/

/-- `s >> c` for a `char` that holds `old`. -/
def IStream.extractChar (s : IStream) (old : UInt8) : UInt8 × IStream :=
  match s.sentry with
  | (false, s) => (old, s)
  | (true, s) =>
      match s.rest with
      | [] => (old, { s with eof := true, fail := true })
      | b :: bs => (b, { s with rest := bs })

theorem IStream.extractChar_cons {b : UInt8} (hb : isSpace b = false)
    (bs : List UInt8) (old : UInt8) :
    (on (b :: bs)).extractChar old = (b, on bs) := by
  rw [extractChar, sentry_on_cons hb]
  rfl

theorem IStream.extractChar_of_fail {s : IStream} (hs : s.fail = true)
    (old : UInt8) : s.extractChar old = (old, s) := by
  rw [extractChar, sentry_of_fail hs]

/-! ## Signs and digits -/

/-- A sign, which is accumulated with the number. -/
def takeSign : List UInt8 → Bool × List UInt8
  | [] => (false, [])
  | b :: bs =>
      if b = 0x2d then (true, bs)
      else if b = 0x2b then (false, bs)
      else (false, b :: bs)

/-- The digits a byte string starts with, and the bytes behind them. -/
def takeDigits (bs : List UInt8) : List UInt8 × List UInt8 :=
  (bs.takeWhile isDigit, bs.dropWhile isDigit)

/-- A printed sign. -/
inductive Sign
  | none
  | plus
  | minus
  deriving DecidableEq, Repr

def Sign.text : Sign → List UInt8
  | .none => []
  | .plus => [0x2b]
  | .minus => [0x2d]

/-- A byte a number may start with after its sign: no sign, no white space. -/
def StartsNumber (b : UInt8) : Prop := b ≠ 0x2b ∧ b ≠ 0x2d ∧ isSpace b = false

theorem startsNumber_of_isDigit {b : UInt8} (hb : isDigit b = true) :
    StartsNumber b := by
  rw [isDigit_iff] at hb
  refine ⟨?_, ?_, ?_⟩
  · rintro rfl
    exact absurd hb (by decide)
  · rintro rfl
    exact absurd hb (by decide)
  · simp only [isSpace, Bool.or_eq_false_iff, Bool.and_eq_false_iff,
      decide_eq_false_iff_not, UInt8.le_iff_toNat_le, ← UInt8.toNat_inj]
    constructor
    · intro heq
      rw [heq] at hb
      exact absurd hb.1 (by decide)
    · refine Or.inr fun hle => ?_
      exact absurd (le_trans hb.1 hle) (by decide)

theorem takeSign_text (sign : Sign) {b : UInt8} (hb : StartsNumber b)
    (bs : List UInt8) :
    takeSign (sign.text ++ b :: bs) = (decide (sign = .minus), b :: bs) := by
  cases sign <;> simp [Sign.text, takeSign, hb.1, hb.2.1]

theorem sentry_text (sign : Sign) {b : UInt8} (hb : StartsNumber b)
    (bs : List UInt8) :
    (IStream.on (sign.text ++ b :: bs)).sentry =
      (true, IStream.on (sign.text ++ b :: bs)) := by
  cases sign with
  | none => exact IStream.sentry_on_cons hb.2.2 bs
  | plus => exact IStream.sentry_on_cons (by decide) (b :: bs)
  | minus => exact IStream.sentry_on_cons (by decide) (b :: bs)

theorem takeDigits_append {ds : List UInt8} (hds : ∀ b ∈ ds, isDigit b = true)
    {c : UInt8} (hc : isDigit c = false) (tail : List UInt8) :
    takeDigits (ds ++ c :: tail) = (ds, c :: tail) := by
  rw [takeDigits, List.takeWhile_append_of_pos hds,
    List.dropWhile_append_of_pos hds]
  simp [hc]

/-! ## Integers -/

/-- The nearest `int`. -/
def clampInt (n : Int) : Int := max (-2147483648) (min n 2147483647)

theorem clampInt_of_range {n : Int} (hlo : -2147483648 ≤ n)
    (hhi : n ≤ 2147483647) : clampInt n = n := by
  rw [clampInt]
  omega

/-- `s >> n` for an `int` that holds `old`. -/
def IStream.extractInt (s : IStream) (old : Int) : Int × IStream :=
  match s.sentry with
  | (false, s) => (old, s)
  | (true, s) =>
      let (negative, bs) := takeSign s.rest
      let (ds, rest) := takeDigits bs
      let n : Int := if negative then -(numeral ds : Int) else numeral ds
      if ds = [] then (0, { rest := rest, eof := rest.isEmpty, fail := true })
      else
        (clampInt n,
          { rest := rest, eof := rest.isEmpty, fail := decide (clampInt n ≠ n) })

theorem IStream.extractInt_of_fail {s : IStream} (hs : s.fail = true)
    (old : Int) : s.extractInt old = (old, s) := by
  rw [extractInt, sentry_of_fail hs]

/-- A printed integer, of any size. -/
structure Integer where
  sign : Sign
  digits : List UInt8
  digits_ne_nil : digits ≠ []
  isDigit_digits : ∀ b ∈ digits, isDigit b = true

def Integer.text (n : Integer) : List UInt8 := n.sign.text ++ n.digits

def Integer.value (n : Integer) : Int :=
  if n.sign = .minus then -(numeral n.digits : Int) else numeral n.digits

/-- `%d` of a natural number. -/
def Integer.unsigned (n : Nat) : Integer :=
  { sign := .none, digits := decimal n, digits_ne_nil := decimal_ne_nil n
    isDigit_digits := fun _ => isDigit_of_mem_decimal }

@[simp] theorem Integer.value_unsigned (n : Nat) : (unsigned n).value = n := by
  simp [value, unsigned]

/-- A printed integer is read up to the first byte that is no digit. -/
theorem IStream.extractInt_text (n : Integer) {c : UInt8}
    (hc : isDigit c = false) (tail : List UInt8) (old : Int) :
    (on (n.text ++ c :: tail)).extractInt old =
      (clampInt n.value,
        { rest := c :: tail, eof := false
          fail := decide (clampInt n.value ≠ n.value) }) := by
  rcases n with ⟨sign, ds, hne, hds⟩
  rcases List.exists_cons_of_ne_nil hne with ⟨b, bs, rfl⟩
  have hb : StartsNumber b := startsNumber_of_isDigit (hds b (by simp))
  have hdigits := takeDigits_append hds hc tail
  rw [List.cons_append] at hdigits
  simp only [Integer.text, Integer.value, List.append_assoc, List.cons_append]
  rw [extractInt, sentry_text sign hb]
  simp only [on, takeSign_text sign hb, hdigits, decide_eq_true_eq,
    reduceCtorEq, if_false, List.isEmpty_cons]

theorem IStream.extractInt_text_of_range (n : Integer) {c : UInt8}
    (hc : isDigit c = false) (hn : clampInt n.value = n.value)
    (tail : List UInt8) (old : Int) :
    (on (n.text ++ c :: tail)).extractInt old = (n.value, on (c :: tail)) := by
  rw [extractInt_text n hc, hn, on]
  simp

/-! ## Doubles -/

/-- The largest double. -/
def doubleMax : Rat := (2 ^ 53 - 1) * 2 ^ 971

/-- The number rounds to an infinite double. -/
def Overflows (x : Rat) : Prop := ∀ y, binary64.round x ≠ .finite y

instance (x : Rat) : Decidable (Overflows x) :=
  match h : binary64.round x with
  | .finite y => .isFalse fun hx => hx y h
  | .infinite _ => .isTrue fun _ hy => Value.noConfusion (h.symm.trans hy)

/-- What is stored for a number: the nearest double, or the limit of its
sign. -/
def storeDouble (x : Rat) : Rat :=
  match binary64.round x with
  | .finite y => y
  | .infinite negative => if negative then -doubleMax else doubleMax

/-- A decimal point and the digits behind it. -/
def takeFraction : List UInt8 → List UInt8 × List UInt8
  | [] => ([], [])
  | b :: bs => if b = 0x2e then takeDigits bs else ([], b :: bs)

/-- An exponent; `none` when the digits are missing after its `e`. -/
def takeExponent : List UInt8 → Option Int × List UInt8
  | [] => (some 0, [])
  | b :: bs =>
      if b = 0x65 ∨ b = 0x45 then
        let (negative, bs) := takeSign bs
        let (ds, rest) := takeDigits bs
        if ds = [] then (none, rest)
        else
          (some (if negative then -(numeral ds : Int) else numeral ds), rest)
      else (some 0, b :: bs)

/-- The number with the given digits before and behind the decimal point. -/
def decimalValue (whole frac : List UInt8) (exponent : Int) : Rat :=
  numeral (whole ++ frac) * 10 ^ (exponent - frac.length)

/-- `s >> x` for a `double` that holds `old`. -/
def IStream.extractDouble (s : IStream) (old : Rat) : Rat × IStream :=
  match s.sentry with
  | (false, s) => (old, s)
  | (true, s) =>
      let (negative, bs) := takeSign s.rest
      let (whole, bs) := takeDigits bs
      let (frac, bs) := takeFraction bs
      if whole = [] ∧ frac = [] then
        (0, { rest := bs, eof := bs.isEmpty, fail := true })
      else
        match takeExponent bs with
        | (none, rest) =>
            (0, { rest := rest, eof := rest.isEmpty, fail := true })
        | (some e, rest) =>
            let x := decimalValue whole frac e
            let x := if negative then -x else x
            (storeDouble x,
              { rest := rest, eof := rest.isEmpty
                fail := decide (Overflows x) })

theorem IStream.extractDouble_of_fail {s : IStream} (hs : s.fail = true)
    (old : Rat) : s.extractDouble old = (old, s) := by
  rw [extractDouble, sentry_of_fail hs]

/-- A printed decimal number: digits with at most one decimal point. -/
structure DecimalText where
  sign : Sign
  whole : List UInt8
  frac : Option (List UInt8)
  digits_ne_nil : whole ++ frac.getD [] ≠ []
  isDigit_whole : ∀ b ∈ whole, isDigit b = true
  isDigit_frac : ∀ b ∈ frac.getD [], isDigit b = true

/-- The decimal point and what is behind it. -/
def fracText : Option (List UInt8) → List UInt8
  | none => []
  | some ds => 0x2e :: ds

def DecimalText.text (x : DecimalText) : List UInt8 :=
  x.sign.text ++ (x.whole ++ fracText x.frac)

def DecimalText.value (x : DecimalText) : Rat :=
  if x.sign = .minus then -decimalValue x.whole (x.frac.getD []) 0
  else decimalValue x.whole (x.frac.getD []) 0

/-- A byte that cannot extend a decimal number. -/
def EndsDecimal (c : UInt8) : Prop :=
  isDigit c = false ∧ c ≠ 0x2e ∧ c ≠ 0x65 ∧ c ≠ 0x45

/-- The byte cannot extend the printed number: a second decimal point ends
it. -/
def DecimalText.EndedBy (x : DecimalText) (c : UInt8) : Prop :=
  isDigit c = false ∧ (x.frac = none → c ≠ 0x2e) ∧ c ≠ 0x65 ∧ c ≠ 0x45

theorem EndsDecimal.endedBy {c : UInt8} (hc : EndsDecimal c) (x : DecimalText) :
    x.EndedBy c :=
  ⟨hc.1, fun _ => hc.2.1, hc.2.2⟩

theorem takeExponent_cons {c : UInt8} (hc : c ≠ 0x65 ∧ c ≠ 0x45)
    (tail : List UInt8) : takeExponent (c :: tail) = (some 0, c :: tail) := by
  simp [takeExponent, hc.1, hc.2]

theorem takeDigits_takeFraction (x : DecimalText) {c : UInt8}
    (hc : x.EndedBy c) (tail : List UInt8) :
    takeDigits (x.whole ++ fracText x.frac ++ c :: tail) =
        (x.whole, fracText x.frac ++ c :: tail) ∧
      takeFraction (fracText x.frac ++ c :: tail) =
        (x.frac.getD [], c :: tail) := by
  rcases x with ⟨sign, whole, frac, hne, hwhole, hfrac⟩
  rcases hc with ⟨hdigit, hpoint, -⟩
  cases frac with
  | none =>
      refine ⟨?_, ?_⟩
      · simpa [fracText] using takeDigits_append hwhole hdigit tail
      · simp [fracText, takeFraction, hpoint rfl]
  | some ds =>
      refine ⟨?_, ?_⟩
      · simpa [fracText] using
          takeDigits_append hwhole (c := 0x2e) (by decide) (ds ++ c :: tail)
      · simpa [fracText, takeFraction] using takeDigits_append hfrac hdigit tail

/-- What stands behind the sign starts with a digit or the decimal point. -/
theorem DecimalText.exists_startsNumber (x : DecimalText) :
    ∃ b bs, x.whole ++ fracText x.frac = b :: bs ∧ StartsNumber b := by
  rcases x with ⟨sign, whole, frac, hne, hwhole, hfrac⟩
  cases whole with
  | cons b bs =>
      exact ⟨b, bs ++ fracText frac, rfl,
        startsNumber_of_isDigit (hwhole b (by simp))⟩
  | nil =>
      cases frac with
      | none => simp at hne
      | some ds => exact ⟨0x2e, ds, rfl, by simp [StartsNumber, isSpace]⟩

/-- A printed decimal number is read up to the first byte that cannot extend
it. -/
theorem IStream.extractDouble_text (x : DecimalText) {c : UInt8}
    (hc : x.EndedBy c) (tail : List UInt8) (old : Rat) :
    (on (x.text ++ c :: tail)).extractDouble old =
      (storeDouble x.value,
        { rest := c :: tail, eof := false
          fail := decide (Overflows x.value) }) := by
  rcases x.exists_startsNumber with ⟨b, bs, hbs, hb⟩
  rcases takeDigits_takeFraction x hc tail with ⟨hwhole, hfrac⟩
  have hne : ¬(x.whole = [] ∧ x.frac.getD [] = []) := by
    intro h
    rcases h with ⟨hw, hf⟩
    exact x.digits_ne_nil (by rw [hw, hf]; rfl)
  rw [hbs, List.cons_append] at hwhole
  rw [DecimalText.text, hbs, List.append_assoc, List.cons_append,
    extractDouble, sentry_text x.sign hb]
  simp only [on, takeSign_text x.sign hb, hwhole, hfrac, hne, if_false,
    takeExponent_cons hc.2.2, List.isEmpty_cons, decide_eq_true_eq,
    DecimalText.value]
  rfl

theorem IStream.extractDouble_text_of_range (x : DecimalText) {c : UInt8}
    (hc : x.EndedBy c) (hx : ¬Overflows x.value)
    (tail : List UInt8) (old : Rat) :
    (on (x.text ++ c :: tail)).extractDouble old =
      (storeDouble x.value, on (c :: tail)) := by
  rw [extractDouble_text x hc, on, decide_eq_false hx]

end LidarPublisher.Lib.Stream

import LidarPublisher.Sqlite.Extent
import LidarPublisher.Token.Query
import Mathlib.Algebra.Order.Group.Unbundled.Int

/-!
# Integer literals

From the text of a literal to the integer the statement computes with: a literal
that fits 32 bits is stored in the expression by `sqlite3GetInt32`, any other is
kept as text and read by `sqlite3Atoi64` when code is generated for it.  The sign
is an operator of its own, so the smallest integers take the second way.
-/

namespace LidarPublisher.Sqlite.Integer

open LidarPublisher.Lib.Bytes
open LidarPublisher.Lib.Decimal
open LidarPublisher.Sqlite.Lexer
open LidarPublisher.Sqlite.Execute
open LidarPublisher.Sqlite.Extent
open LidarPublisher.Token.Clock
open LidarPublisher.Token.Query

/-! ## Reading an integer -/

/-- `sqlite3HexToInt`. -/
def hexToInt (h : UInt8) : Nat :=
  let h := h.toNat + 9 * ((h.toNat >>> 6) &&& 1)
  h &&& 0xf

/-- `*zNum=='0'`. -/
def isZero (c : UInt8) : Bool := c = 0x30

/-- The text begins like a hexadecimal literal. -/
def hexPrefix (z : List UInt8) : Bool :=
  byteAt z 0 = 0x30 && (byteAt z 1 = 0x78 || byteAt z 1 = 0x58) &&
    isXDigit (byteAt z 2)

/-- The digit loop of `sqlite3GetInt32`, which makes at most `n` rounds. -/
def int32Loop : (n : Nat) → List UInt8 → (i v : Nat) → Nat × Nat
  | n + 1, c :: zNum, i, v =>
      if isDigit c then int32Loop n zNum (i + 1) (v * 10 + digitValue c)
      else (i, v)
  | _, _, i, v => (i, v)

/-- The loop over at most `n` hexadecimal digits: the value and what follows. -/
def hexLoop : (n : Nat) → List UInt8 → (u : Nat) → Nat × List UInt8
  | n + 1, c :: zNum, u =>
      if isXDigit c then hexLoop n zNum (u * 16 + hexToInt c)
      else (u, c :: zNum)
  | _, zNum, u => (u, zNum)

/-- `sqlite3GetInt32`: the integer, if there is one that fits 32 bits. -/
def getInt32 (zNum : List UInt8) : Option Int :=
  let neg := byteAt zNum 0 = 0x2d
  let hex := hexPrefix zNum
  let zNum := if neg ∨ byteAt zNum 0 = 0x2b then zNum.tail else zNum
  if hex then
    let (u, zNum) := hexLoop 8 ((zNum.drop 2).dropWhile isZero) 0
    if u < 2 ^ 31 ∧ isXDigit (byteAt zNum 0) = false then some u else none
  else
    let (i, v) := int32Loop 11 (zNum.dropWhile isZero) 0 0
    if i > 10 then none
    else if (v : Int) - (if neg then 1 else 0) > 2147483647 then none
    else if neg then some (-v)
    else some v

/-- The digits of `compare2pow63` up to the last: ten times the first
difference. -/
def compareDigits : (zNum pow63 : List UInt8) → Int
  | a :: zNum, b :: pow63 =>
      let c := ((a.toNat : Int) - b.toNat) * 10
      if c = 0 then compareDigits zNum pow63 else c
  | zNum, _ => (byteAt zNum 0).toNat - (0x38 : UInt8).toNat

/-- `compare2pow63`. -/
def compare2pow63 (zNum : List UInt8) : Int :=
  compareDigits zNum (ascii "922337203685477580")

def largestInt64 : Nat := 2 ^ 63 - 1
def smallestInt64 : Int := -2 ^ 63

/-- The digit loop of `sqlite3Atoi64`: the value modulo 2^64, the number of
digits, and the last byte looked at. -/
def atoiLoop : List UInt8 → (u i : Nat) → (c : UInt8) → Nat × Nat × UInt8
  | [], u, i, c => (u, i, c)
  | b :: zNum, u, i, _ =>
      if isDigit b then atoiLoop zNum ((u * 10 + digitValue b) % 2 ^ 64) (i + 1) b
      else (u, i, b)

/-- `sqlite3Atoi64` on UTF-8 text of exactly these bytes: the result code, and
the value in `*pNum`. -/
def atoi64 (zNum : List UInt8) : Nat × Int :=
  let zNum := zNum.dropWhile isSpace
  let neg := byteAt zNum 0 = 0x2d
  let zStart := if neg ∨ byteAt zNum 0 = 0x2b then zNum.tail else zNum
  let zNum := zStart.dropWhile isZero
  let (u, i, c) := atoiLoop zNum 0 0 0
  let pNum : Int :=
    if u > largestInt64 then if neg then smallestInt64 else largestInt64
    else if neg then -u
    else u
  if (c ≠ 0 ∧ i < zNum.length) ∨ (i = 0 ∧ zStart = zNum) ∨ i > 19 then (1, pNum)
  else if i < 19 then (0, pNum)
  else
    let c := compare2pow63 zNum
    if c < 0 then (0, pNum)
    else if c > 0 then (1, pNum)
    else (if neg then 0 else 2, pNum)

/-- `sqlite3DecOrHexToI64`. -/
def decOrHexToI64 (z : List UInt8) : Nat × Int :=
  if hexPrefix z then
    let zi := (z.drop 2).dropWhile isZero
    let (u, zk) := hexLoop zi.length zi 0
    (if byteAt zk 0 = 0 ∧ zi.length - zk.length ≤ 16 then 0 else 1,
      Int.bmod u (2 ^ 64))
  else atoi64 z

/-! ## Literals in expressions -/

/-- The value of a `TK_INTEGER` expression: `u.iValue` under `EP_IntValue`, or
`u.zToken`. -/
inductive IntegerExpr
  | iValue (i : Int)
  | zToken (text : List UInt8)
  deriving DecidableEq, Repr

/-- `sqlite3ExprAlloc` for a `TK_INTEGER` token: the text is read beyond the
token, in the statement. -/
def exprAlloc (text rest : List UInt8) : IntegerExpr :=
  match getInt32 (text ++ rest) with
  | some i => .iValue i
  | none => .zToken text

/-- `codeInteger`: the integer that is loaded, or `none` for a real number or an
error. -/
def codeInteger (expr : IntegerExpr) (negFlag : Bool) : Option Int :=
  match expr with
  | .iValue i => some (if negFlag then -i else i)
  | .zToken z =>
      let (c, value) := decOrHexToI64 z
      if c = 0 ∨ (c = 2 ∧ negFlag = true) then
        some
          (if negFlag then
            if c = 2 then smallestInt64 else Int.bmod (-value) (2 ^ 64)
          else value)
      else none

/-! ## Decimal texts -/

/-- The digits of a decimal literal. -/
structure Digits (ds : List UInt8) : Prop where
  nonempty : ds ≠ []
  digits : ∀ b ∈ ds, isDigit b = true

theorem isDigit_of_dropWhile {ds : List UInt8}
    (h : ∀ b ∈ ds, isDigit b = true) : ∀ b ∈ ds.dropWhile isZero, isDigit b = true :=
  fun b hb => h b ((List.dropWhile_suffix _).subset hb)

theorem numeral_dropZeros (ds : List UInt8) :
    numeral (ds.dropWhile isZero) = numeral ds := numeral_dropWhile ds

/-- Without its zeros in front a numeral of `n + 1` digits is at least `10^n`. -/
theorem pow_le_of_dropZeros {ds : List UInt8} (h : ∀ b ∈ ds, isDigit b = true)
    {n : Nat} (hn : n < (ds.dropWhile isZero).length) : 10 ^ n ≤ numeral ds := by
  rw [← numeral_dropZeros]
  have hdigits := isDigit_of_dropWhile h
  cases hds : ds.dropWhile isZero with
  | nil => rw [hds] at hn; exact absurd hn (Nat.not_lt_zero n)
  | cons b bs =>
      rw [hds] at hdigits hn
      have hb : b ≠ 0x30 := by
        have hne : ds.dropWhile isZero ≠ [] := by simp [hds]
        have hhead := List.head_dropWhile_not isZero hne
        simp only [hds, List.head_cons, isZero] at hhead
        simpa using hhead
      have hle := le_numeral (hdigits b List.mem_cons_self) hb bs
      exact (Nat.pow_le_pow_right (by decide) (Nat.lt_succ_iff.mp hn)).trans hle

/-- Zeros are skipped up to a byte that is no digit. -/
theorem dropWhile_append_rest {rest : List UInt8}
    (hrest : isDigit (byteAt rest 0) = false) (ds : List UInt8) :
    (ds ++ rest).dropWhile isZero = ds.dropWhile isZero ++ rest := by
  induction ds with
  | nil =>
      cases rest with
      | nil => rfl
      | cons c rest =>
          have hc : isZero c = false := by
            rw [← Bool.not_eq_true]
            intro h
            have hc : c = 0x30 := by simpa [isZero] using h
            rw [hc] at hrest
            simp [byteAt, isDigit] at hrest
          rw [List.nil_append, List.dropWhile_cons_of_neg (by simp [hc])]
          rfl
  | cons b ds ih =>
      rw [List.cons_append]
      by_cases hb : isZero b = true
      · rw [List.dropWhile_cons_of_pos hb, List.dropWhile_cons_of_pos hb, ih]
      · rw [List.dropWhile_cons_of_neg hb, List.dropWhile_cons_of_neg hb]
        rfl

/-- The value of digits behind those of `v`. -/
def numeralFrom (v : Nat) (ds : List UInt8) : Nat :=
  ds.foldl (fun acc b => 10 * acc + digitValue b) v

/-! ## Integers of 32 bits -/

/-- The loop reads up to `n` digits. -/
theorem int32Loop_digits {ds rest : List UInt8}
    (h : ∀ b ∈ ds, isDigit b = true) (hrest : isDigit (byteAt rest 0) = false)
    {n : Nat} (hn : ds.length ≤ n) (i v : Nat) :
    int32Loop n (ds ++ rest) i v = (i + ds.length, numeralFrom v ds) := by
  induction ds generalizing n i v with
  | nil =>
      cases n with
      | zero => rfl
      | succ n =>
          cases rest with
          | nil => rfl
          | cons c rest =>
              show (if isDigit c then _ else (i, v)) = (i, v)
              exact if_neg (by simpa [byteAt] using hrest)
  | cons b ds ih =>
      cases n with
      | zero => exact absurd hn (by simp)
      | succ n =>
          show (if isDigit b then int32Loop n (ds ++ rest) (i + 1)
            (v * 10 + digitValue b) else (i, v)) = _
          rw [if_pos (h b List.mem_cons_self),
            ih (fun c hc => h c (List.mem_cons_of_mem _ hc))
              (Nat.le_of_succ_le_succ hn), Nat.mul_comm v, List.length_cons]
          refine Prod.ext ?_ rfl
          dsimp only
          omega

/-- With more than `n` digits the loop makes `n` rounds. -/
theorem int32Loop_fst {ds : List UInt8} (h : ∀ b ∈ ds, isDigit b = true)
    (rest : List UInt8) {n : Nat} (hn : n ≤ ds.length) (i v : Nat) :
    (int32Loop n (ds ++ rest) i v).1 = i + n := by
  induction n generalizing ds i v with
  | zero =>
      cases ds ++ rest <;> rfl
  | succ n ih =>
      cases ds with
      | nil => exact absurd hn (by simp)
      | cons b ds =>
          show (if isDigit b then int32Loop n (ds ++ rest) (i + 1)
            (v * 10 + digitValue b) else (i, v)).1 = _
          rw [if_pos (h b List.mem_cons_self),
            ih (fun c hc => h c (List.mem_cons_of_mem _ hc))
              (Nat.le_of_succ_le_succ hn)]
          omega

theorem isDigit_of_isIdChar {c : UInt8} (h : isIdChar c = false) :
    isDigit c = false := by
  simp only [isIdChar, Bool.or_eq_false_iff] at h
  exact h.1.1.1.1

/-- A digit is no sign. -/
theorem Digits.byteAt_ne {ds : List UInt8} (h : Digits ds) (rest : List UInt8) :
    byteAt (ds ++ rest) 0 ≠ 0x2d ∧ byteAt (ds ++ rest) 0 ≠ 0x2b := by
  cases ds with
  | nil => exact absurd rfl h.nonempty
  | cons b ds =>
      have hb := h.digits b List.mem_cons_self
      constructor
      · rintro (rfl : b = 0x2d)
        exact absurd hb (by decide)
      · rintro (rfl : b = 0x2b)
        exact absurd hb (by decide)

theorem Digits.dropWhile_isSpace {ds : List UInt8} (h : Digits ds) :
    ds.dropWhile isSpace = ds := by
  cases ds with
  | nil => rfl
  | cons b ds =>
      have hb := h.digits b List.mem_cons_self
      have hrange := (isDigit_iff b).mp hb
      refine List.dropWhile_cons_of_neg fun hspace => ?_
      simp only [isSpace, Bool.or_eq_true, Bool.and_eq_true, decide_eq_true_eq,
        UInt8.le_iff_toNat_le] at hspace
      rcases hspace with rfl | ⟨-, hle⟩
      · exact absurd hb (by decide)
      · have hlimit : (0x0d : UInt8).toNat = 13 := rfl
        omega

/-- Digits do not begin like a hexadecimal literal, unless an `x` follows. -/
theorem hexPrefix_digits {ds rest : List UInt8} (h : Digits ds)
    (hrest : isIdChar (byteAt rest 0) = false) : hexPrefix (ds ++ rest) = false := by
  have hx : ∀ c, isIdChar c = false ∨ isDigit c = true →
      (decide (c = 0x78) || decide (c = 0x58)) = false := by
    rintro c hc
    rw [← Bool.not_eq_true]
    intro heq
    rcases Bool.or_eq_true_iff.mp heq with heq | heq <;>
    · rw [of_decide_eq_true heq] at hc
      exact absurd hc (by decide)
  have hsecond : isIdChar (byteAt (ds ++ rest) 1) = false ∨
      isDigit (byteAt (ds ++ rest) 1) = true := by
    rcases ds with _ | ⟨a, _ | ⟨b, ds⟩⟩
    · exact absurd rfl h.nonempty
    · exact Or.inl hrest
    · exact Or.inr (h.digits b (by simp))
  unfold hexPrefix
  rw [hx _ hsecond, Bool.and_false, Bool.false_and]

theorem getInt32_digits {ds rest : List UInt8} (h : Digits ds)
    (hrest : isIdChar (byteAt rest 0) = false) :
    getInt32 (ds ++ rest) =
      if numeral ds < 2 ^ 31 then some (numeral ds : Int) else none := by
  have hdigit := isDigit_of_isIdChar hrest
  have hdigits := isDigit_of_dropWhile h.digits
  have hsize : 10 < (ds.dropWhile isZero).length → 10 ^ 10 ≤ numeral ds :=
    pow_le_of_dropZeros h.digits
  have hsign := h.byteAt_ne rest
  unfold getInt32
  rw [hexPrefix_digits h hrest]
  simp only [hsign.1, hsign.2, or_self, if_false, Bool.false_eq_true,
    dropWhile_append_rest hdigit]
  by_cases hlen : (ds.dropWhile isZero).length ≤ 11
  · rw [int32Loop_digits hdigits hdigit hlen]
    have hvalue : numeralFrom 0 (ds.dropWhile isZero) = numeral ds :=
      numeral_dropZeros ds
    simp only [hvalue, Nat.zero_add]
    by_cases hten : 10 < (ds.dropWhile isZero).length
    · have hlarge := hsize hten
      rw [if_pos hten, if_neg (by omega)]
    · rw [if_neg hten]
      by_cases hfits : numeral ds < 2 ^ 31
      · rw [if_pos hfits, if_neg (by omega)]
      · rw [if_neg hfits, if_pos (by omega)]
  · have hrounds := int32Loop_fst hdigits rest (Nat.le_of_not_le hlen) 0 0
    have hlarge := hsize (show 10 < (ds.dropWhile isZero).length by omega)
    have hten : (int32Loop 11 (ds.dropWhile isZero ++ rest) 0 0).1 > 10 := by
      rw [hrounds]
      decide
    rw [if_pos hten, if_neg (by omega)]

/-! ## Integers of 64 bits -/

/-- The loop reads digits to their end, modulo 2^64. -/
theorem atoiLoop_digits {ds : List UInt8} (h : ∀ b ∈ ds, isDigit b = true)
    (u i : Nat) (c : UInt8) :
    (atoiLoop ds (u % 2 ^ 64) i c).1 = numeralFrom u ds % 2 ^ 64 ∧
      (atoiLoop ds (u % 2 ^ 64) i c).2.1 = i + ds.length := by
  induction ds generalizing u i c with
  | nil => exact ⟨rfl, rfl⟩
  | cons b ds ih =>
      have hb := h b List.mem_cons_self
      have hround : (u % 2 ^ 64 * 10 + digitValue b) % 2 ^ 64 =
          (10 * u + digitValue b) % 2 ^ 64 := by
        omega
      have hstep : atoiLoop (b :: ds) (u % 2 ^ 64) i c =
          atoiLoop ds ((10 * u + digitValue b) % 2 ^ 64) (i + 1) b := by
        rw [atoiLoop, if_pos hb, hround]
      rcases ih (fun d hd => h d (List.mem_cons_of_mem _ hd))
        (10 * u + digitValue b) (i + 1) b with ⟨hvalue, hcount⟩
      rw [hstep, hvalue, hcount, List.length_cons]
      exact ⟨rfl, by omega⟩

/-- The first difference of two numerals of one length decides, and the last
digit is compared with `8`. -/
theorem compareDigits_sign {zNum pow63 : List UInt8}
    (hlen : zNum.length = pow63.length + 1)
    (hz : ∀ b ∈ zNum, isDigit b = true) (hp : ∀ b ∈ pow63, isDigit b = true) :
    (compareDigits zNum pow63 < 0 ↔ numeral zNum < numeral (pow63 ++ [0x38])) ∧
      (compareDigits zNum pow63 = 0 ↔
        numeral zNum = numeral (pow63 ++ [0x38])) := by
  induction pow63 generalizing zNum with
  | nil =>
      rcases List.length_eq_one_iff.mp hlen with ⟨b, rfl⟩
      have hb := (isDigit_iff b).mp (hz b List.mem_cons_self)
      show ((b.toNat : Int) - 56 < 0 ↔ 10 * 0 + (b.toNat - 48) < 8) ∧
        ((b.toNat : Int) - 56 = 0 ↔ 10 * 0 + (b.toNat - 48) = 8)
      omega
  | cons p pow63 ih =>
      rcases zNum with _ | ⟨b, zNum⟩
      · exact absurd hlen (by simp)
      have hlen' : zNum.length = pow63.length + 1 := Nat.succ_injective hlen
      have hz' : ∀ c ∈ zNum, isDigit c = true := fun c hc =>
        hz c (List.mem_cons_of_mem _ hc)
      have hp' : ∀ c ∈ pow63 ++ [0x38], isDigit c = true := by
        intro c hc
        rcases List.mem_append.mp hc with hc | hc
        · exact hp c (List.mem_cons_of_mem _ hc)
        · rw [List.mem_singleton.mp hc]
          decide
      have hb := (isDigit_iff b).mp (hz b List.mem_cons_self)
      have hpd := (isDigit_iff p).mp (hp p List.mem_cons_self)
      have hlow := numeral_lt hz'
      have hhigh := numeral_lt hp'
      rw [List.length_append, List.length_singleton, ← hlen'] at hhigh
      have hrest := ih hlen' hz' fun c hc => hp c (List.mem_cons_of_mem _ hc)
      have hstep : compareDigits (b :: zNum) (p :: pow63) =
          if ((b.toNat : Int) - p.toNat) * 10 = 0 then compareDigits zNum pow63
          else ((b.toNat : Int) - p.toNat) * 10 := rfl
      rw [hstep, List.cons_append, numeral_cons, numeral_cons,
        List.length_append, List.length_singleton, ← hlen']
      unfold digitValue
      generalize 10 ^ zNum.length = ten at hlow hhigh ⊢
      rcases Nat.lt_trichotomy b.toNat p.toNat with hlt | heq | hgt
      · have hmul := Nat.mul_le_mul_right ten
          (show b.toNat - 48 + 1 ≤ p.toNat - 48 by omega)
        rw [Nat.add_mul, Nat.one_mul] at hmul
        rw [if_neg (by omega)]
        omega
      · rw [heq, if_pos (by omega)]
        omega
      · have hmul := Nat.mul_le_mul_right ten
          (show p.toNat - 48 + 1 ≤ b.toNat - 48 by omega)
        rw [Nat.add_mul, Nat.one_mul] at hmul
        rw [if_neg (by omega)]
        omega

/-- `compare2pow63` on 19 digits. -/
theorem compare2pow63_sign {zNum : List UInt8} (hlen : zNum.length = 19)
    (hz : ∀ b ∈ zNum, isDigit b = true) :
    (compare2pow63 zNum < 0 ↔ numeral zNum < 2 ^ 63) ∧
      (compare2pow63 zNum = 0 ↔ numeral zNum = 2 ^ 63) := by
  have hpow : numeral (ascii "922337203685477580" ++ [0x38]) = 2 ^ 63 := by
    decide +kernel
  rw [← hpow]
  exact compareDigits_sign (by rw [hlen]; decide +kernel) hz (by decide +kernel)

/-- `sqlite3Atoi64` on digits: the code tells how the number compares with 2^63,
and below it the value is exact. -/
theorem atoi64_digits {ds : List UInt8} (h : Digits ds) :
    (atoi64 ds).1 =
        (if numeral ds < 2 ^ 63 then 0 else if numeral ds = 2 ^ 63 then 2 else 1) ∧
      (numeral ds < 2 ^ 63 → (atoi64 ds).2 = numeral ds) := by
  have hdigits := isDigit_of_dropWhile h.digits
  have hsize : 19 < (ds.dropWhile isZero).length → 10 ^ 19 ≤ numeral ds :=
    pow_le_of_dropZeros h.digits
  have hsmall : numeral ds < 10 ^ (ds.dropWhile isZero).length := by
    rw [← numeral_dropZeros]
    exact numeral_lt hdigits
  have hcompare := fun hlen => compare2pow63_sign hlen hdigits
  rw [numeral_dropZeros] at hcompare
  have hsign := h.byteAt_ne []
  rw [List.append_nil] at hsign
  have hloop := atoiLoop_digits hdigits 0 0 0
  have hvalue : numeralFrom 0 (ds.dropWhile isZero) = numeral ds :=
    numeral_dropZeros ds
  rw [Nat.zero_mod, hvalue, Nat.zero_add] at hloop
  -- The digits are not all skipped as zeros without one being counted.
  have hstart : ¬((ds.dropWhile isZero).length = 0 ∧ ds = ds.dropWhile isZero) := by
    rintro ⟨hnil, heq⟩
    rw [← heq] at hnil
    exact h.nonempty (List.length_eq_zero_iff.mp hnil)
  unfold atoi64
  simp only [h.dropWhile_isSpace, hsign.1, hsign.2, or_self, if_false]
  rcases hatoi : atoiLoop (ds.dropWhile isZero) 0 0 0 with ⟨u, i, c⟩
  rw [hatoi] at hloop
  rcases hloop with ⟨rfl, rfl⟩
  have hend : ¬(c ≠ 0 ∧ (ds.dropWhile isZero).length < (ds.dropWhile isZero).length) :=
    fun hlt => Nat.lt_irrefl _ hlt.2
  simp only [hend, hstart, false_or]
  have hexact : numeral ds < 2 ^ 63 →
      (if numeral ds % 2 ^ 64 > largestInt64 then (largestInt64 : Int)
        else (numeral ds % 2 ^ 64 : Nat)) = numeral ds := by
    intro hlt
    rw [Nat.mod_eq_of_lt (by omega), if_neg (by unfold largestInt64; omega)]
  generalize (if numeral ds % 2 ^ 64 > largestInt64 then (largestInt64 : Int)
    else (numeral ds % 2 ^ 64 : Nat)) = pNum at hexact ⊢
  by_cases hlong : (ds.dropWhile isZero).length > 19
  · have hlarge := hsize hlong
    rw [if_pos hlong, if_neg (by omega), if_neg (by omega)]
    exact ⟨rfl, hexact⟩
  rw [if_neg hlong]
  by_cases hshort : (ds.dropWhile isZero).length < 19
  · have hpow : 10 ^ (ds.dropWhile isZero).length ≤ 10 ^ 18 :=
      Nat.pow_le_pow_right (by decide) (Nat.le_of_lt_succ hshort)
    rw [if_pos hshort, if_pos (by omega)]
    exact ⟨rfl, hexact⟩
  rw [if_neg hshort]
  rcases hcompare (by omega) with ⟨hlt, heq⟩
  by_cases hbelow : compare2pow63 (ds.dropWhile isZero) < 0
  · rw [if_pos hbelow, if_pos (hlt.mp hbelow)]
    exact ⟨rfl, hexact⟩
  rw [if_neg hbelow, if_neg fun h => hbelow (hlt.mpr h)]
  by_cases hequal : compare2pow63 (ds.dropWhile isZero) = 0
  · rw [if_neg (by omega), if_pos (heq.mp hequal)]
    exact ⟨rfl, hexact⟩
  · rw [if_pos (by omega), if_neg fun h => hequal (heq.mpr h)]
    exact ⟨rfl, hexact⟩

/-! ## From the text to the integer -/

theorem decOrHexToI64_digits {ds : List UInt8} (h : Digits ds) :
    decOrHexToI64 ds = atoi64 ds := by
  have hhex := hexPrefix_digits h (show isIdChar (byteAt [] 0) = false by decide)
  rw [List.append_nil] at hhex
  rw [decOrHexToI64, hhex]
  rfl

/-- The integer a literal with an optional sign stands for, if it has 64 bits;
otherwise it is coded as a real number. -/
theorem codeInteger_digits {ds rest : List UInt8} (h : Digits ds)
    (hrest : isIdChar (byteAt rest 0) = false) (neg : Bool) :
    codeInteger (exprAlloc ds rest) neg =
      if numeral ds < 2 ^ 63 ∨ neg = true ∧ numeral ds = 2 ^ 63 then
        some (intValue neg ds)
      else none := by
  unfold exprAlloc
  rw [getInt32_digits h hrest]
  by_cases hsmall : numeral ds < 2 ^ 31
  · rw [if_pos hsmall, if_pos (Or.inl (by omega))]
    rfl
  rw [if_neg hsmall]
  rcases atoi64_digits h with ⟨hcode, hvalue⟩
  simp only [codeInteger, decOrHexToI64_digits h]
  by_cases hbelow : numeral ds < 2 ^ 63
  · rw [if_pos hbelow] at hcode
    rw [hcode, hvalue hbelow, if_pos (Or.inl rfl), if_pos (Or.inl hbelow)]
    cases neg with
    | false => rfl
    | true =>
        have hbmod : Int.bmod (-(numeral ds : Int)) (2 ^ 64) = -(numeral ds : Int) :=
          Int.bmod_eq_of_le (by omega) (by omega)
        rw [hbmod]
        rfl
  rw [if_neg hbelow] at hcode
  by_cases hequal : numeral ds = 2 ^ 63
  · rw [if_pos hequal] at hcode
    rw [hcode]
    cases neg with
    | false =>
        rw [if_neg (by simp), if_neg fun hrange =>
          hrange.elim hbelow fun hlow => Bool.false_ne_true hlow.1]
    | true =>
        have hvalue' : intValue true ds = smallestInt64 := by
          show -(numeral ds : Int) = smallestInt64
          rw [hequal]
          rfl
        simp [hequal, hvalue']
  · rw [if_neg hequal] at hcode
    rw [hcode, if_neg (by simp),
      if_neg fun hrange => hrange.elim hbelow fun hlow => hequal hlow.2]

/-! ## The update statement -/

theorem digits_of_tokenize {text q ds : List UInt8} {neg : Bool}
    (h : tokenize text = updateTokens q neg ds) (hds : ds.all isDigit = true) :
    Digits ds := by
  have hmem : { kind := .integer, text := ds } ∈ tokenize text := by
    rw [h]
    simp [updateTokens, intTokens]
  exact ⟨text_ne_nil hmem, List.all_eq_true.mp hds⟩

/-- The integer an update compares `userId` with is the one that is coded for
its literal, whatever follows the literal in the statement. -/
theorem coded_of_update {text buffer : List UInt8} {uid : Int}
    (h : parse text = .update buffer uid) :
    ∃ q neg ds, tokenize text = updateTokens q neg ds ∧ dequote q = buffer ∧
      ∀ rest, isIdChar (byteAt rest 0) = false →
        codeInteger (exprAlloc ds rest) neg = some uid := by
  unfold parse at h
  dsimp only at h
  generalize textAt (tokenize text)
    (if decide ((tokenize text).length = 11) = true then 10 else 9) = ds at h
  generalize decide ((tokenize text).length = 11) = neg at h
  split at h
  · cases h
  split at h
  · rename_i hupdate
    cases h
    rcases hupdate with ⟨htokens, _, _, hds, hrange⟩
    have hdigits := digits_of_tokenize htokens hds
    refine ⟨_, neg, ds, htokens, rfl, fun rest hrest => ?_⟩
    rw [codeInteger_digits hdigits hrest, if_pos (Or.inl hrange)]
  · cases h

/-- The smallest identifier has a literal of more than 32 bits behind its sign. -/
theorem coded_of_update_smallest :
    ∃ q neg ds,
      tokenize (updateQuery (strftime noon.toTm) Int32.minValue) =
          updateTokens q neg ds ∧ dequote q = strftime noon.toTm ∧
        ∀ rest, isIdChar (byteAt rest 0) = false →
          codeInteger (exprAlloc ds rest) neg = some (-2147483648) :=
  coded_of_update (parse_updateQuery noon.toTm Int32.minValue)

end LidarPublisher.Sqlite.Integer

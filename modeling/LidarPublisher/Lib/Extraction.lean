import LidarPublisher.Lib.Stream

/-!
# Extractions from arbitrary bytes

What a chain of extractions does to bytes that need not be a printed number.
`leadingNumber` is the value an integer extraction meets; `afterInteger` and
`afterChar` are the bytes behind a successful extraction, so a chain of them
says how far a stream of extractions gets before it fails.
-/

namespace LidarPublisher.Lib.Stream

open LidarPublisher.Lib.Bytes
open LidarPublisher.Lib.Decimal

/-! ## How far the bytes go -/

/-- Nothing but white space. -/
def Blank (bs : List UInt8) : Prop := bs.dropWhile isSpace = []

instance (bs : List UInt8) : Decidable (Blank bs) :=
  inferInstanceAs (Decidable (_ = _))

/-- The number that stands behind the white space: an optional sign and digits,
0 without digits. -/
def leadingNumber (bs : List UInt8) : Int :=
  let (negative, bs) := takeSign (bs.dropWhile isSpace)
  let ds := (takeDigits bs).1
  if negative then -(numeral ds : Int) else numeral ds

/-- The bytes behind an integer that fits an `int`. -/
def afterInteger (bs : List UInt8) : Option (List UInt8) :=
  let (ds, rest) := takeDigits (takeSign (bs.dropWhile isSpace)).2
  if ds ≠ [] ∧ clampInt (leadingNumber bs) = leadingNumber bs then some rest
  else none

/-- The bytes behind a character that is no white space. -/
def afterChar (bs : List UInt8) : Option (List UInt8) :=
  match bs.dropWhile isSpace with
  | [] => none
  | _ :: rest => some rest

namespace IStream

/-- A stream that has not failed, with `rest` to read. -/
def behind (rest : List UInt8) : IStream :=
  { rest := rest, eof := rest.isEmpty, fail := false }

theorem behind_cons (b : UInt8) (bs : List UInt8) :
    behind (b :: bs) = on (b :: bs) := rfl

/-! ## Failed streams stay failed -/

theorem fail_extractInt {s : IStream} (hs : s.fail = true) (old : Int) :
    (s.extractInt old).2.fail = true := by
  rw [extractInt_of_fail hs]
  exact hs

theorem fail_extractChar {s : IStream} (hs : s.fail = true) (old : UInt8) :
    (s.extractChar old).2.fail = true := by
  rw [extractChar_of_fail hs]
  exact hs

/-! ## The sentry -/

theorem sentry_of_blank {bs : List UInt8} (h : Blank bs) :
    (on bs).sentry = (false, { rest := [], eof := true, fail := true }) := by
  unfold Blank at h
  simp [sentry, on, good, h]

theorem sentry_of_not_blank {bs : List UInt8} {b : UInt8} {rest : List UInt8}
    (h : bs.dropWhile isSpace = b :: rest) :
    (on bs).sentry = (true, on (b :: rest)) := by
  simp [sentry, on, good, h]

/-- The end of the bytes fails the next extraction. -/
theorem sentry_behind_nil :
    (behind []).sentry = (false, { rest := [], eof := true, fail := true }) := by
  decide

/-! ## Integers -/

/-- What an extraction stores: the nearest `int`, or nothing. -/
theorem extractInt_fst (bs : List UInt8) (old : Int) :
    ((on bs).extractInt old).1 =
      if Blank bs then old else clampInt (leadingNumber bs) := by
  by_cases hblank : Blank bs
  · rw [if_pos hblank, extractInt, sentry_of_blank hblank]
  · rw [if_neg hblank]
    rcases List.exists_cons_of_ne_nil hblank with ⟨b, rest, hdrop⟩
    rw [extractInt, sentry_of_not_blank hdrop, leadingNumber, hdrop]
    dsimp only [on]
    by_cases hds : (takeDigits (takeSign (b :: rest)).2).1 = []
    · rw [if_pos hds, hds]
      simp [numeral, clampInt]
    · rw [if_neg hds]

theorem extractInt_of_afterInteger {bs rest : List UInt8}
    (h : afterInteger bs = some rest) (old : Int) :
    (on bs).extractInt old = (leadingNumber bs, behind rest) := by
  unfold afterInteger at h
  dsimp only at h
  split at h
  · next hok =>
      rcases hok with ⟨hds, hfits⟩
      obtain rfl := Option.some.inj h
      have hne : bs.dropWhile isSpace ≠ [] := by
        intro hnil
        rw [hnil] at hds
        exact hds rfl
      rcases List.exists_cons_of_ne_nil hne with ⟨b, tail, hdrop⟩
      unfold leadingNumber at hfits ⊢
      rw [hdrop] at hds hfits ⊢
      dsimp only at hfits ⊢
      rw [extractInt, sentry_of_not_blank hdrop]
      dsimp only [on]
      rw [if_neg hds, hfits]
      simp [behind]
  · exact absurd h (by simp)

theorem extractInt_fail {bs : List UInt8} (h : afterInteger bs = none)
    (old : Int) : ((on bs).extractInt old).2.fail = true := by
  have hnot : ¬((takeDigits (takeSign (bs.dropWhile isSpace)).2).1 ≠ [] ∧
      clampInt (leadingNumber bs) = leadingNumber bs) := by
    intro hok
    unfold afterInteger at h
    dsimp only at h
    rw [if_pos hok] at h
    exact absurd h (by simp)
  by_cases hblank : Blank bs
  · rw [extractInt, sentry_of_blank hblank]
  · rcases List.exists_cons_of_ne_nil hblank with ⟨b, tail, hdrop⟩
    unfold leadingNumber at hnot
    rw [hdrop] at hnot
    dsimp only at hnot
    rw [extractInt, sentry_of_not_blank hdrop]
    dsimp only [on]
    by_cases hds : (takeDigits (takeSign (b :: tail)).2).1 = []
    · rw [if_pos hds]
    · rw [if_neg hds]
      exact decide_eq_true fun hfits => hnot ⟨hds, hfits⟩

/-! ## Characters -/

theorem extractChar_of_afterChar {bs rest : List UInt8}
    (h : afterChar bs = some rest) :
    ∃ b, ∀ old, (behind bs).extractChar old = (b, on rest) := by
  cases bs with
  | nil => exact absurd h (by simp [afterChar])
  | cons c cs =>
      unfold afterChar at h
      rw [behind_cons]
      split at h
      · exact absurd h (by simp)
      · next b tail hdrop =>
          obtain rfl := Option.some.inj h
          refine ⟨b, fun old => ?_⟩
          rw [extractChar, sentry_of_not_blank hdrop]
          rfl

theorem extractChar_fail {bs : List UInt8} (h : afterChar bs = none)
    (old : UInt8) : ((behind bs).extractChar old).2.fail = true := by
  cases bs with
  | nil => rw [extractChar, sentry_behind_nil]
  | cons c cs =>
      have hblank : Blank (c :: cs) := by
        unfold afterChar at h
        split at h
        · next hdrop => exact hdrop
        · exact absurd h (by simp)
      rw [behind_cons, extractChar, sentry_of_blank hblank]

/-! ## Doubles -/

theorem extractDouble_of_blank {bs : List UInt8} (h : Blank bs) (old : Rat) :
    ((on bs).extractDouble old).1 = old := by
  rw [extractDouble, sentry_of_blank h]

/-- Any other byte makes the extraction store something. -/
theorem extractDouble_congr {bs : List UInt8} (h : ¬Blank bs) (old old' : Rat) :
    ((on bs).extractDouble old).1 = ((on bs).extractDouble old').1 := by
  rcases List.exists_cons_of_ne_nil h with ⟨b, tail, hdrop⟩
  rw [extractDouble, extractDouble, sentry_of_not_blank hdrop]

end IStream

end LidarPublisher.Lib.Stream

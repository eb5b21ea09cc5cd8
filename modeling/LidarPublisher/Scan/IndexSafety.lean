import LidarPublisher.Lib.Extraction
import LidarPublisher.Scan.Responses

/-!
# Which lines keep the index in bounds

The index into the arrays of the scan is the number a line starts with, as the
device sent it.  A line of white space leaves the index of the line before, or
what the uninitialised variable held.
-/

namespace LidarPublisher.Scan.IndexSafety

open LidarPublisher.Lib.Bytes
open LidarPublisher.Lib.ReadUntil
open LidarPublisher.Lib.Stream
open LidarPublisher.Scan.Message
open LidarPublisher.Scan.LidarScanner
open LidarPublisher.Scan.Responses

/-- An index of the arrays. -/
def InBounds (i : Int) : Prop := 0 ≤ i ∧ i < 360

instance (i : Int) : Decidable (InBounds i) :=
  inferInstanceAs (Decidable (_ ∧ _))

/-- Every index used by up to `left` iterations is in bounds, as long as the
port delivers. -/
def IndexSafe (left : Nat) (p : Poll) (port : Port) : Prop :=
  ∀ k, k < left → ∀ q rest response rest', p.loop k port = some (q, rest) →
    readUntil crlf [] rest = some (response, rest') →
      InBounds (q.locals.extract response).scanPosition

/-- The responses start with numbers from 0 to 359, and a first one of white
space finds such a number in `scan_position`. -/
def StartInBounds (position : Int) (rs : List (List UInt8)) : Prop :=
  (∀ r ∈ rs, ¬Blank r → InBounds (leadingNumber r)) ∧
    ∀ r, rs.head? = some r → Blank r → InBounds position

/-! ## One response -/

theorem inBounds_clampInt_iff (n : Int) :
    InBounds (clampInt n) ↔ InBounds n := by
  unfold InBounds clampInt
  omega

/-- The index a response gives. -/
theorem extract_scanPosition (l : Locals) (response : List UInt8) :
    (l.extract response).scanPosition =
      if Blank response then l.scanPosition
      else clampInt (leadingNumber response) :=
  IStream.extractInt_fst response l.scanPosition

/-- A safe response, and safe ones behind it that start from its index. -/
theorem startInBounds_cons_iff (l : Locals) (r : List UInt8)
    (rs : List (List UInt8)) :
    StartInBounds l.scanPosition (r :: rs) ↔
      InBounds (l.extract r).scanPosition ∧
        StartInBounds (l.extract r).scanPosition rs := by
  have hindex : InBounds (l.extract r).scanPosition ↔
      (¬Blank r → InBounds (leadingNumber r)) ∧
        (Blank r → InBounds l.scanPosition) := by
    rw [extract_scanPosition]
    by_cases hblank : Blank r
    · simp [hblank]
    · simp [hblank, inBounds_clampInt_iff]
  unfold StartInBounds
  rw [List.forall_mem_cons, hindex]
  constructor
  · intro h
    rcases h with ⟨⟨hr, hrs⟩, hhead⟩
    have hfirst := fun hblank => hhead r rfl hblank
    exact ⟨⟨hr, hfirst⟩, hrs, fun _ _ _ => ⟨hr, hfirst⟩⟩
  · intro h
    rcases h with ⟨⟨hr, hfirst⟩, hrs, -⟩
    refine ⟨⟨hr, hrs⟩, fun r' hr' hblank => ?_⟩
    rw [← Option.some.inj hr'] at hblank
    exact hfirst hblank

/-! ## All of them -/

/-- A port that delivers nothing uses no index. -/
theorem indexSafe_of_none {p : Poll} {port : Port}
    (h : readUntil crlf [] port = none) (n : Nat) : IndexSafe n p port := by
  intro k _ q rest r rest' hloop hread
  cases k with
  | zero =>
      rcases Poll.of_loop_zero hloop with ⟨rfl, rfl⟩
      rw [h] at hread
      exact absurd hread (by simp)
  | succ k =>
      rw [loop_succ_none h] at hloop
      exact absurd hloop (by simp)

/-- The first index, and those of the iterations behind it. -/
theorem indexSafe_succ_iff {p : Poll} (hp : Full p.scan) {port rest : Port}
    {response : List UInt8}
    (hread : readUntil crlf [] port = some (response, rest)) (n : Nat) :
    IndexSafe (n + 1) p port ↔
      InBounds (p.locals.extract response).scanPosition ∧
        IndexSafe n (measured p port.flatten response) rest := by
  constructor
  · intro h
    have hfirst := h 0 (Nat.succ_pos n) p port response rest rfl hread
    refine ⟨hfirst, fun k hk q left r left' hloop => ?_⟩
    rw [← loop_succ_of_inBounds hp hread hfirst] at hloop
    exact h (k + 1) (by omega) q left r left' hloop
  · intro h k hk q left r left' hloop hread'
    rcases h with ⟨hfirst, hrest⟩
    cases k with
    | zero =>
        rcases Poll.of_loop_zero hloop with ⟨rfl, rfl⟩
        rw [hread] at hread'
        obtain ⟨rfl, rfl⟩ := Prod.mk.inj (Option.some.inj hread')
        exact hfirst
    | succ k =>
        rw [loop_succ_of_inBounds hp hread hfirst] at hloop
        exact hrest k (by omega) q left r left' hloop hread'

/-- Induction over the iterations, the locals moving on with the responses. -/
theorem indexSafe_iff_startInBounds (n : Nat) {p : Poll} (hp : Full p.scan)
    (port : Port) :
    IndexSafe n p port ↔
      StartInBounds p.locals.scanPosition (responses n port).1 := by
  induction n generalizing p port with
  | zero =>
      apply iff_of_true
      · exact fun k hk => absurd hk (Nat.not_lt_zero k)
      · simp [StartInBounds, responses]
  | succ n ih =>
      cases hread : readUntil crlf [] port with
      | none =>
          rw [responses_succ_none hread]
          apply iff_of_true (indexSafe_of_none hread (n + 1))
          simp [StartInBounds]
      | some out =>
          obtain ⟨response, rest⟩ := out
          rw [indexSafe_succ_iff hp hread, responses_succ_some hread,
            startInBounds_cons_iff, ih (full_measured hp _ _)]
          rfl

/-- **When the index is safe.**  Every index of a call of `poll` is in bounds if
and only if each response it reads starts, behind white space, with a number
from 0 to 359 or with no digits, except that a response of white space needs the
index before it: the uninitialised one when it comes first. -/
theorem indexSafe_iff (garbage : Locals) (scan : LaserScan) (port : Port) :
    IndexSafe 10 (Poll.start garbage scan) port ↔
      StartInBounds garbage.scanPosition (responses 10 port).1 :=
  indexSafe_iff_startInBounds 10 (full_prepare scan) port

/-- A line for bearing 400. -/
theorem not_indexSafe :
    ¬∀ (garbage : Locals) (scan : LaserScan) (port : Port),
      IndexSafe 10 (Poll.start garbage scan) port := by
  intro h
  have hbounds := h
    { scanPosition := 0, distance := 0, degreesPerSecond := 0, scanTimeMs := 0
      dummy := 0 } LaserScan.new [ascii "400,1,1,1\r\n"] 0 (by decide) _ _
    (ascii "400,1,1,1\r\n") [] rfl (by decide)
  rw [extract_scanPosition] at hbounds
  revert hbounds
  decide +kernel

end LidarPublisher.Scan.IndexSafety

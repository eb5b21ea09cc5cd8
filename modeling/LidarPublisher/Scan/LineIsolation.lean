import LidarPublisher.Lib.Extraction
import LidarPublisher.Scan.Fields

/-!
# Lines that do not depend on the lines before them

The locals that `poll` parses into live outside its loop, the stream and its
fail state in it.  A line that breaks off leaves the values of an earlier line,
or uninitialised ones, in the locals, and they are written again for its own
position.
-/

namespace LidarPublisher.Scan.LineIsolation

open LidarPublisher.Lib.Binary
open LidarPublisher.Lib.Bytes
open LidarPublisher.Lib.ReadUntil
open LidarPublisher.Lib.Stream
open LidarPublisher.Scan.Message
open LidarPublisher.Scan.LidarScanner
open LidarPublisher.Scan.Responses
open LidarPublisher.Scan.Fields

/-- What an iteration writes, by the locals: the index, the two cells and the
time increment. -/
def written (l : Locals) : Int × Value × Value × Value :=
  (l.scanPosition, metres l.distance, binary32.round l.distance,
    binary32.round l.degreesPerSecond)

/-- A call of `poll` has read `i` lines, has the locals of `q`, and reads the line
`r` next. -/
def ReadsNext (i : Nat) (r : List UInt8) (q : Poll) : Prop :=
  ∃ garbage scan port rest rest',
    (∀ line ∈ (responses i port).1, IsLine crlf line) ∧
      (Poll.start garbage scan).loop i port = some (q, rest) ∧
      readUntil crlf [] rest = some (r, rest')

/-- What is written for the line as the `i`-th of a call is the same whatever
stands before it; and a line of another form than four printed numbers writes
nothing that the locals held before it. -/
structure Isolated (i : Nat) (r : List UInt8) : Prop where
  runs : ∀ q q', ReadsNext i r q → ReadsNext i r q' →
    written (q.locals.extract r) = written (q'.locals.extract r)
  malformed : (¬∃ line : Printed, r = line.text) →
    ∀ l l' : Locals, written (l.extract r) = written (l'.extract r)

/-- The extractions reach the third number: an integer that fits an `int`, a
character, another such integer, another character, and a byte that is no white
space. -/
def Assigns (r : List UInt8) : Prop :=
  ∃ rest ∈ (((afterInteger r).bind afterChar).bind afterInteger).bind afterChar,
    ¬Blank rest

instance (r : List UInt8) : Decidable (Assigns r) :=
  inferInstanceAs (Decidable (∃ rest ∈ _, _))

/-! ## The extractions -/

/-- A measurement writes what `written` says. -/
theorem scan_measured (p : Poll) (unread r : List UInt8) :
    (measured p unread r).scan =
      { write p.scan (written (p.locals.extract r)).1.toNat
          (written (p.locals.extract r)).2.1
          (written (p.locals.extract r)).2.2.1 with
        timeIncrement := (written (p.locals.extract r)).2.2.2 } := by
  unfold measured written
  rfl

/-- A line that reaches the third number writes nothing old. -/
theorem written_of_assigns {r : List UInt8} (h : Assigns r) (l l' : Locals) :
    written (l.extract r) = written (l'.extract r) := by
  rcases h with ⟨r₄, hr₄, hblank⟩
  rcases Option.bind_eq_some_iff.mp hr₄ with ⟨r₃, hr₃, hchar⟩
  rcases Option.bind_eq_some_iff.mp hr₃ with ⟨r₂, hr₂, hinteger⟩
  rcases Option.bind_eq_some_iff.mp hr₂ with ⟨r₁, hr₁, hchar'⟩
  rcases IStream.extractChar_of_afterChar hchar' with ⟨b, hb⟩
  rcases IStream.extractChar_of_afterChar hchar with ⟨c, hc⟩
  unfold Locals.extract
  simp only [IStream.extractInt_of_afterInteger hr₁, hb,
    IStream.extractInt_of_afterInteger hinteger, hc, written]
  rw [IStream.extractDouble_congr hblank l.degreesPerSecond
    l'.degreesPerSecond]

/-- The number of the earlier line, extracted behind the first four. -/
private theorem degreesPerSecond_extract (l : Locals) (r : List UInt8) :
    (l.extract r).degreesPerSecond =
      ((((((IStream.on r).extractInt l.scanPosition).2.extractChar
        l.dummy).2.extractInt l.distance).2.extractChar
          (((IStream.on r).extractInt l.scanPosition).2.extractChar
            l.dummy).1).2.extractDouble l.degreesPerSecond).1 := by
  unfold Locals.extract
  dsimp only

/-- Any other line writes the number of an earlier one. -/
theorem degreesPerSecond_of_not_assigns {r : List UInt8} (h : ¬Assigns r)
    (l : Locals) : (l.extract r).degreesPerSecond = l.degreesPerSecond := by
  have hfail : ∀ s : IStream, s.fail = true →
      (s.extractDouble l.degreesPerSecond).1 = l.degreesPerSecond := by
    intro s hs
    rw [IStream.extractDouble_of_fail hs]
  rw [degreesPerSecond_extract]
  cases hr₁ : afterInteger r with
  | none =>
      apply hfail
      exact IStream.fail_extractChar (IStream.fail_extractInt
        (IStream.fail_extractChar (IStream.extractInt_fail hr₁ _) _) _) _
  | some r₁ =>
      rw [IStream.extractInt_of_afterInteger hr₁]
      cases hr₂ : afterChar r₁ with
      | none =>
          apply hfail
          exact IStream.fail_extractChar (IStream.fail_extractInt
            (IStream.extractChar_fail hr₂ _) _) _
      | some r₂ =>
          rcases IStream.extractChar_of_afterChar hr₂ with ⟨b, hb⟩
          rw [hb]
          cases hr₃ : afterInteger r₂ with
          | none =>
              apply hfail
              exact IStream.fail_extractChar (IStream.extractInt_fail hr₃ _) _
          | some r₃ =>
              rw [IStream.extractInt_of_afterInteger hr₃]
              cases hr₄ : afterChar r₃ with
              | none => exact hfail _ (IStream.extractChar_fail hr₄ _)
              | some r₄ =>
                  rcases IStream.extractChar_of_afterChar hr₄ with ⟨c, hc⟩
                  rw [hc]
                  apply IStream.extractDouble_of_blank
                  by_contra hblank
                  refine h ⟨r₄, ?_, hblank⟩
                  rw [hr₁, Option.bind_some, hr₂, Option.bind_some, hr₃,
                    Option.bind_some, hr₄]
                  rfl

/-! ## Lines before -/

theorem isLine_crlf : IsLine crlf crlf :=
  isLine_append_crlf [] List.not_mem_nil

/-- An empty line leaves the locals as they are. -/
theorem extract_crlf (l : Locals) : l.extract crlf = l := rfl

/-- Empty lines write a position again and again, with what the locals hold. -/
theorem loop_replicate_crlf (i : Nat) {p : Poll} (hp : Full p.scan)
    (hrange : 0 ≤ p.locals.scanPosition ∧ p.locals.scanPosition < 360)
    (rest : Port) :
    ∃ q, p.loop i (List.replicate i crlf ++ rest) = some (q, rest) ∧
      q.locals = p.locals := by
  induction i generalizing p with
  | zero => exact ⟨p, rfl, rfl⟩
  | succ i ih =>
      have hread := readUntil_cons_line isLine_crlf
        (List.replicate i crlf ++ rest)
      have hlocals : ∀ unread, (measured p unread crlf).locals = p.locals :=
        fun _ => extract_crlf p.locals
      rw [List.replicate_succ, List.cons_append,
        loop_succ_of_inBounds hp hread (extract_crlf p.locals ▸ hrange)]
      rcases ih (full_measured hp _ _) ((hlocals _).symm ▸ hrange) with ⟨q, hloop, hq⟩
      exact ⟨q, hloop, by rw [hq, hlocals]⟩

/-- Uninitialised locals with a position in bounds. -/
def uninitialised (x : Rat) : Locals :=
  { scanPosition := 0, distance := 0, degreesPerSecond := x, scanTimeMs := 0
    dummy := 0 }

/-- Every line can come behind empty lines that leave `x` in the third local. -/
theorem exists_readsNext (i : Nat) {r : List UInt8} (hr : IsLine crlf r)
    (x : Rat) :
    ∃ q, ReadsNext i r q ∧ q.locals.degreesPerSecond = x := by
  obtain ⟨q, hloop, hlocals⟩ := loop_replicate_crlf i
    (p := Poll.start (uninitialised x) LaserScan.new) (full_prepare _)
    (show (0 : Int) ≤ 0 ∧ (0 : Int) < 360 by decide) [r]
  have hresponses := responses_lines (List.replicate i crlf)
    (fun line hline => List.eq_of_mem_replicate hline ▸ isLine_crlf) [r]
  rw [List.length_replicate] at hresponses
  refine ⟨q, ⟨uninitialised x, LaserScan.new, List.replicate i crlf ++ [r], [r],
    [], ?_, hloop, readUntil_cons_line hr []⟩, by rw [hlocals]; rfl⟩
  rw [hresponses]
  exact fun line hline => List.eq_of_mem_replicate hline ▸ isLine_crlf

/-- What is written tells the third local apart. -/
theorem assigns_of_isolated {i : Nat} {r : List UInt8} (hr : IsLine crlf r)
    (h : Isolated i r) : Assigns r := by
  by_contra hnot
  rcases exists_readsNext i hr 0 with ⟨q, hq, hzero⟩
  rcases exists_readsNext i hr 1 with ⟨q', hq', hone⟩
  have hwritten := congrArg (fun w => w.2.2.2) (h.runs q q' hq hq')
  simp only [written, degreesPerSecond_of_not_assigns hnot, hzero, hone] at hwritten
  exact absurd hwritten (by decide +kernel)

/-- **Which lines are isolated.**  What `poll` writes for a line does not depend
on the lines before it and on the uninitialised locals if and only if the
extractions reach the third number of the line. -/
theorem isolated_iff (i : Nat) (r : List UInt8) (hr : IsLine crlf r) :
    Isolated i r ↔ Assigns r :=
  ⟨assigns_of_isolated hr, fun h =>
    { runs := fun _ _ _ _ => written_of_assigns h _ _
      malformed := fun _ => written_of_assigns h }⟩

/-- A complete line. -/
theorem isolated_complete : Isolated 3 (ascii "7,120,36.5,20\r\n") :=
  (isolated_iff 3 (ascii "7,120,36.5,20\r\n")
    (isLine_append_crlf (ascii "7,120,36.5,20") (by decide))).mpr
    (by decide +kernel)

/-- A line that breaks off behind its bearing is written with the distance of the
line before. -/
theorem not_isolated_bearing :
    ¬∀ (i : Nat) (r : List UInt8), i < 10 → IsLine crlf r → Isolated i r := by
  intro h
  have hline : IsLine crlf (ascii "7\r\n") :=
    isLine_append_crlf (ascii "7") (by decide)
  have hassigns := assigns_of_isolated hline (h 1 (ascii "7\r\n") (by decide) hline)
  revert hassigns
  decide +kernel

end LidarPublisher.Scan.LineIsolation

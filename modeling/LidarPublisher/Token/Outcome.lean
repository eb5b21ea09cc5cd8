import LidarPublisher.Token.Acceptance

/-!
# What the result of `verifyToken` says about the table

The result of stepping the update is not looked at, and the user number goes
through an `int` on its way into the statement.  So the code 1 says that the
rows of the user found were renewed only if the step succeeded and the number
fits 32 bits, or if there was nothing to write.
-/

namespace LidarPublisher.Token.Outcome

open LidarPublisher.Lib.Bytes
open LidarPublisher.Sqlite.Lexer
open LidarPublisher.Sqlite.Execute
open LidarPublisher.Token.Clock
open LidarPublisher.Token.Query
open LidarPublisher.Token.VerifyToken
open LidarPublisher.Token.Acceptance

/-- Every row of the user carries the text `buffer`. -/
def Carries (buffer : List UInt8) (userId : Int64) (t : Table) : Prop :=
  ∀ r ∈ t, r.userId = userId → r.expiration = buffer

instance (buffer : List UInt8) (userId : Int64) (t : Table) :
    Decidable (Carries buffer userId t) :=
  inferInstanceAs (Decidable (∀ r ∈ t, _))

/-- The returned code tells what happened: -1 that the table is unchanged, 1
that every row of the user in the last row found carries the new expiration. -/
structure Reports (e : Engine) (f : Faults) (now later : LocalTime)
    (token : List UInt8) (db : Db) : Prop where
  refused : (verifyToken (Calls.faulty e f) now later token db).1 = -1 →
    (verifyToken (Calls.faulty e f) now later token db).2.table = db.table
  renewed : (verifyToken (Calls.faulty e f) now later token db).1 = 1 →
    ∀ column0,
      ((Calls.faulty e f).found now token db.table).getLast? = some column0 →
        Carries (strftime (renew later.toTm)) column0
          (verifyToken (Calls.faulty e f) now later token db).2.table

/-- An update for the low 32 bits reaches the user exactly if there are no
other bits; otherwise it leaves the rows of the user alone. -/
theorem carries_setExpiration_iff (buffer : List UInt8) (userId : Int64)
    (t : Table) :
    Carries buffer userId (setExpiration buffer userId.toInt32.toInt t) ↔
      userId.toInt32.toInt = userId.toInt ∨ Carries buffer userId t := by
  have hrow : ∀ r : Row,
      (if r.userId.toInt = userId.toInt32.toInt then
        { r with expiration := buffer } else r).userId = r.userId := by
    intro r
    split <;> rfl
  unfold Carries setExpiration
  rw [List.forall_mem_map]
  simp only [hrow]
  by_cases hfits : userId.toInt32.toInt = userId.toInt
  · refine iff_of_true ?_ (Or.inl hfits)
    rintro r - rfl
    rw [if_pos hfits.symm]
  · simp only [hfits, false_or]
    refine forall₂_congr fun r _ => forall_congr' fun huser => ?_
    rw [huser, if_neg (Ne.symm hfits)]

/-- The table after the update step, in which the update may have failed. -/
theorem carries_tableAfter_iff (e : Engine) (f : Faults) (later : LocalTime)
    (column0 : Int64) (t : Table) :
    Carries (strftime (renew later.toTm)) column0
        ((Calls.faulty e f).tableAfter later t (some column0)) ↔
      (f.updateError = false ∧ column0.toInt32.toInt = column0.toInt) ∨
        Carries (strftime (renew later.toTm)) column0 t := by
  rw [tableAfter_faulty]
  cases hupdate : f.updateError with
  | true => simp
  | false =>
      simp only [Bool.false_eq_true, if_false, true_and]
      exact carries_setExpiration_iff _ column0 t

/-- The row a call renews is the last row found. -/
theorem getLast?_of_target {sq : Calls} {now later : LocalTime}
    {token : List UInt8} {table : Table} {column0 : Int64}
    (h : sq.target now later token table = some column0) :
    (sq.found now token table).getLast? = some column0 := by
  unfold Calls.target at h
  split at h
  · exact (Option.filter_eq_some_iff.mp h).1
  · exact absurd h (by simp)

/-- **When the result tells what happened.**  The code reports the state of the
table if and only if, in case the select finds a row and both statements are
prepared, the update step succeeds and the user number of the last row fits 32
bits, or every row of that user carries the new expiration already. -/
theorem reports_iff (e : Engine) (f : Faults) (now later : LocalTime)
    (token : List UInt8) (db : Db) :
    Reports e f now later token db ↔
      ∀ column0,
        (Calls.faulty e f).target now later token db.table = some column0 →
          (f.updateError = false ∧ column0.toInt32.toInt = column0.toInt) ∨
            Carries (strftime (renew later.toTm)) column0 db.table := by
  obtain ⟨hcode, htable⟩ :=
    verifyToken_code_table (Calls.faulty e f) now later token db
  cases htarget : (Calls.faulty e f).target now later token db.table with
  | none =>
      rw [htarget] at hcode
      apply iff_of_true
      · refine ⟨fun h => table_of_refused h, fun h => ?_⟩
        rw [hcode] at h
        exact absurd h (by decide)
      · intro column0 h
        exact absurd h (by simp)
  | some column0 =>
      rw [htarget] at hcode htable
      have hlast := getLast?_of_target htarget
      simp only [Option.some.injEq, forall_eq']
      rw [← carries_tableAfter_iff, ← htable]
      constructor
      · intro h
        exact h.renewed hcode column0 hlast
      · intro h
        refine ⟨fun hneg => ?_, fun _ column0' hlast' => ?_⟩
        · rw [hcode] at hneg
          exact absurd hneg (by simp)
        · rw [hlast] at hlast'
          rwa [← Option.some.inj hlast']

/-- The update step fails, on a locked database say. -/
theorem not_reports :
    ¬∀ (e : Engine) (f : Faults) (now later : LocalTime) (token : CToken)
      (db : Db), dquote ∉ token.bytes → Reports e f now later token.bytes db := by
  intro h
  have htarget : (Calls.faulty Engine.plain
      { Faults.none with updateError := true }).target noon noon sixteenAs.bytes
      sixteenAsTable = some 7 := by decide +kernel
  obtain ⟨hcode, htable⟩ := verifyToken_code_table (Calls.faulty Engine.plain
    { Faults.none with updateError := true }) noon noon sixteenAs.bytes
    { table := sixteenAsTable, handles := [] }
  rw [htarget] at hcode htable
  have hcarries := (h Engine.plain { Faults.none with updateError := true } noon
    noon sixteenAs { table := sixteenAsTable, handles := [] }
    (by decide)).renewed hcode 7 (getLast?_of_target htarget)
  rw [htable, tableAfter_faulty] at hcarries
  exact absurd hcarries (by decide +kernel)

end LidarPublisher.Token.Outcome

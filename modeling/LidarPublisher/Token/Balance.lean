import LidarPublisher.Lib.Run
import LidarPublisher.Token.VerifyToken

/-!
# Which calls of `verifyToken` give their handles back

The ledger is followed over whole sequences of calls, every SQLite call of every
invocation having any outcome.  Only the exit for a token that is not found
settles both the connection and the statement.
-/

namespace LidarPublisher.Token.Balance

open LidarPublisher.Lib.Run
open LidarPublisher.Sqlite.Ledger
open LidarPublisher.Sqlite.Execute
open LidarPublisher.Token.Clock
open LidarPublisher.Token.Query
open LidarPublisher.Token.VerifyToken

/-- One call of `verifyToken`: the outcomes of its SQLite calls, its two clock
readings and its argument. -/
structure Invocation where
  sq : Calls
  now : LocalTime
  later : LocalTime
  token : CToken

/-- The database after the call. -/
def call (db : Db) (v : Invocation) : Db :=
  (verifyToken v.sq v.now v.later v.token.bytes db).2

/-- When the call returns, every statement it created was finalized exactly
once, every connection it obtained was closed, and the number of live handles is
what it was before. -/
def BalancedCall (db : Db) (v : Invocation) : Prop :=
  Balanced db.handles (call db v).handles ∧
    live (call db v).handles = live db.handles

/-- The database opens, the first statement compiles, and its first step does
not return a row. -/
def NoRow (db : Db) (v : Invocation) : Prop :=
  v.sq.openOk = true ∧
    v.sq.prepareSelect (selectQuery v.token.bytes (strftime v.now.toTm)) = true ∧
    v.sq.found v.now v.token.bytes db.table = []

/-- The connections a call leaves behind, one for each exit. -/
theorem call_handles (db : Db) (v : Invocation) :
    ∃ c : Connection, (call db v).handles = db.handles ++ [c] ∧
      (c.Settled ↔ NoRow db v) := by
  have hexit := verifyToken_exit v.sq v.now v.later v.token.bytes db
  unfold call
  generalize verifyToken v.sq v.now v.later v.token.bytes db = out at hexit ⊢
  cases hexit with
  | openFailed hopen => exact ⟨_, rfl, by simp [Connection.Settled, NoRow, hopen]⟩
  | selectRejected hopen hprep =>
      exact ⟨_, rfl, by simp [Connection.Settled, NoRow, hprep]⟩
  | noRow hopen hprep hfound =>
      exact ⟨_, rfl, by simp [Connection.Settled, NoRow, hopen, hprep, hfound]⟩
  | updateRejected hopen hprep column0 hfound hprep' =>
      have hne : v.sq.found v.now v.token.bytes db.table ≠ [] := by
        intro hnil
        simp [hnil] at hfound
      exact ⟨_, rfl, by simp [Connection.Settled, NoRow, hne]⟩
  | renewed hopen hprep column0 hfound hprep' =>
      have hne : v.sq.found v.now v.token.bytes db.table ≠ [] := by
        intro hnil
        simp [hnil] at hfound
      exact ⟨_, rfl, by simp [Connection.Settled, NoRow, hne]⟩

theorem balancedCall_iff_noRow (db : Db) (v : Invocation) :
    BalancedCall db v ↔ NoRow db v := by
  obtain ⟨c, hhandles, hsettled⟩ := call_handles db v
  rw [← hsettled, ← balanced_append_singleton_iff db.handles, ← hhandles]
  exact ⟨fun h => h.1, fun h => ⟨h, h.live_eq⟩⟩

/-- Balanced calls keep the number of live handles along the run. -/
theorem live_run_eq (db : Db) (vs : List Invocation)
    (h : EveryStep call BalancedCall db vs) :
    live (runFrom call db vs).handles = live db.handles :=
  inv_runFrom_of_everyStep
    (fun db' => live db'.handles = live db.handles)
    (fun _ _ hlive hcall => hcall.2.trans hlive) db vs rfl h

/-- **Handle balance.**  All calls of a sequence give their handles back, and
the number of live handles is the same after it as before, exactly when every
call opens the database, compiles its first statement and finds no row. -/
theorem balanced_run_iff (db : Db) (vs : List Invocation) :
    (EveryStep call BalancedCall db vs ∧
        live (runFrom call db vs).handles = live db.handles) ↔
      EveryStep call NoRow db vs := by
  have hsteps : EveryStep call BalancedCall db vs ↔ EveryStep call NoRow db vs :=
    everyStep_congr_of_inv (fun _ => True) (fun _ _ _ => trivial)
      (fun db v _ => balancedCall_iff_noRow db v) db vs trivial
  rw [← hsteps]
  exact ⟨fun h => h.1, fun h => ⟨h, live_run_eq db vs h⟩⟩

/-- A call that finds a user and renews the token: all its SQLite calls
succeed. -/
def accepting : Invocation :=
  { sq :=
      { openOk := true
        prepareSelect := fun _ => true
        stepSelect := fun _ _ => [.row 7, .done]
        prepareUpdate := fun _ => true
        stepUpdate := fun _ table => (.done, table) }
    now := noon
    later := noon
    token := { bytes := [], noNul := by decide, short := by decide } }

/-- The accepted token leaves a statement and its connection behind. -/
theorem not_balanced_run :
    ¬∀ (db : Db) (vs : List Invocation),
      EveryStep call BalancedCall db vs ∧
        live (runFrom call db vs).handles = live db.handles := by
  intro h
  have hlive := (h { table := [], handles := [] } [accepting]).2
  revert hlive
  decide

end LidarPublisher.Token.Balance

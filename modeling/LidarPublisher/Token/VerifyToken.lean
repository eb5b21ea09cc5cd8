import LidarPublisher.Sqlite.Ledger
import LidarPublisher.Token.Query

/-!
# `verifyToken`

The function opens the database, selects the user of the presented token among
the unexpired rows and, if there is one, moves the expiration of that user on.
`Calls` is what the SQLite calls of one invocation do; every outcome of every
call is allowed.  `Calls.faulty` is the library of a concrete engine whose calls
may fail, `Calls.real` the one whose calls all succeed.
-/

namespace LidarPublisher.Token.VerifyToken

open LidarPublisher.Sqlite.Ledger
open LidarPublisher.Sqlite.Execute
open LidarPublisher.Token.Clock
open LidarPublisher.Token.Query

/-- The results of `sqlite3_step`, a row with its first column. -/
inductive StepResult
  | row (column0 : Int64)
  | done
  | busy
  | error
  deriving DecidableEq, Repr

/-- The SQLite calls of one invocation: whether the open and the two prepares
succeed, what stepping the first statement yields (`SQLITE_DONE` behind the end
of the list), and what stepping the second one does. -/
structure Calls where
  openOk : Bool
  prepareSelect : List UInt8 → Bool
  stepSelect : List UInt8 → Table → List StepResult
  prepareUpdate : List UInt8 → Bool
  stepUpdate : List UInt8 → Table → StepResult × Table

/-- What an invocation reads and writes outside its locals. -/
structure Db where
  table : Table
  handles : Handles
  deriving DecidableEq, Repr

/-- `lidarserver::sqlite_open`. -/
def sqliteOpen (ok : Bool) (h : Handles) : Option Nat × Handles :=
  let (conn, h) := sqlite3Open h
  if ok then (some conn, h) else (none, h)

/-- `while (sqlite3_step(stmt) == SQLITE_ROW)`, with `sqlite3_column_int`. -/
def readRows : List StepResult → (c : Nat) → (uid : Int32) → Nat × Int32
  | .row column0 :: results, c, _ => readRows results (c + 1) column0.toInt32
  | _, c, uid => (c, uid)

/-- `lidarserver::verifyToken`: the returned code and the database after the
call.  `uid` has no initial value in the source; it is used only after a row
has set it. -/
def verifyToken (sq : Calls) (now later : LocalTime) (token : List UInt8)
    (db : Db) : Int × Db :=
  match sqliteOpen sq.openOk db.handles with
  | (none, handles) => (-1, { db with handles := handles })
  | (some conn, handles) =>
      let query := selectQuery token (strftime now.toTm)
      let ok := sq.prepareSelect query
      let (stmt, handles) := sqlite3Prepare ok conn handles
      if ok = false then (-1, { db with handles := handles })
      else
        let (c, uid) := readRows (sq.stepSelect query db.table) 0 0
        if c = 0 then
          let handles := sqlite3Finalize stmt handles
          let (_, handles) := sqlite3Close conn handles
          (-1, { db with handles := handles })
        else
          let query := updateQuery (strftime (renew later.toTm)) uid
          let ok := sq.prepareUpdate query
          let (stmt, handles) := sqlite3Prepare ok conn handles
          if ok = false then
            let handles := sqlite3Finalize stmt handles
            let (_, handles) := sqlite3Close conn handles
            (-1, { db with handles := handles })
          else
            let (_, table) := sq.stepUpdate query db.table
            let handles := sqlite3Finalize stmt handles
            let (_, handles) := sqlite3Close conn handles
            (1, { table := table, handles := handles })

/-! ## The exits of `verifyToken` -/

/-- The rows read before the first other result. -/
def leadingRows : List StepResult → List Int64
  | .row column0 :: results => column0 :: leadingRows results
  | _ => []

/-- The loop counts the leading rows and keeps the low 32 bits of the last. -/
theorem readRows_eq (results : List StepResult) (c : Nat) (uid : Int32) :
    readRows results c uid =
      (c + (leadingRows results).length,
        ((leadingRows results).getLast?.map Int64.toInt32).getD uid) := by
  induction results generalizing c uid with
  | nil => rfl
  | cons r results ih =>
      cases r with
      | row column0 =>
          rw [readRows, ih, leadingRows, List.length_cons,
            List.getLast?_cons]
          simp only [Prod.mk.injEq, Option.map_some, Option.getD_some]
          refine ⟨by omega, ?_⟩
          cases (leadingRows results).getLast? <;> rfl
      | done => rfl
      | busy => rfl
      | error => rfl

/-- The rows the token query returns in this call. -/
def Calls.found (sq : Calls) (now : LocalTime) (token : List UInt8)
    (table : Table) : List Int64 :=
  leadingRows (sq.stepSelect (selectQuery token (strftime now.toTm)) table)

/-- The text of the update for the user in `column0`. -/
def renewQuery (later : LocalTime) (column0 : Int64) : List UInt8 :=
  updateQuery (strftime (renew later.toTm)) column0.toInt32

/-- The five exits, with the state each leaves: the new connection is the last
one of the ledger. -/
inductive VerifyExit (sq : Calls) (now later : LocalTime)
    (token : List UInt8) (db : Db) : Int × Db → Prop
  | openFailed (hopen : sq.openOk = false) :
      VerifyExit sq now later token db
        (-1, { db with
          handles := db.handles ++ [{ closed := false, stmts := [] }] })
  | selectRejected (hopen : sq.openOk = true)
      (hprep : sq.prepareSelect (selectQuery token (strftime now.toTm)) = false) :
      VerifyExit sq now later token db
        (-1, { db with
          handles := db.handles ++ [{ closed := false, stmts := [] }] })
  | noRow (hopen : sq.openOk = true)
      (hprep : sq.prepareSelect (selectQuery token (strftime now.toTm)) = true)
      (hfound : sq.found now token db.table = []) :
      VerifyExit sq now later token db
        (-1, { db with
          handles := db.handles ++ [{ closed := true, stmts := [1] }] })
  | updateRejected (hopen : sq.openOk = true)
      (hprep : sq.prepareSelect (selectQuery token (strftime now.toTm)) = true)
      (column0 : Int64)
      (hfound : (sq.found now token db.table).getLast? = some column0)
      (hprep' : sq.prepareUpdate (renewQuery later column0) = false) :
      VerifyExit sq now later token db
        (-1, { db with
          handles := db.handles ++ [{ closed := false, stmts := [0] }] })
  | renewed (hopen : sq.openOk = true)
      (hprep : sq.prepareSelect (selectQuery token (strftime now.toTm)) = true)
      (column0 : Int64)
      (hfound : (sq.found now token db.table).getLast? = some column0)
      (hprep' : sq.prepareUpdate (renewQuery later column0) = true) :
      VerifyExit sq now later token db
        (1, { table := (sq.stepUpdate (renewQuery later column0) db.table).2
              handles := db.handles ++ [{ closed := false, stmts := [0, 1] }] })

/-- Every call leaves by one of the five exits. -/
theorem verifyToken_exit (sq : Calls) (now later : LocalTime)
    (token : List UInt8) (db : Db) :
    VerifyExit sq now later token db (verifyToken sq now later token db) := by
  unfold verifyToken sqliteOpen sqlite3Open
  cases hopen : sq.openOk with
  | false => exact .openFailed hopen
  | true =>
      simp only [if_true]
      cases hprep : sq.prepareSelect (selectQuery token (strftime now.toTm)) with
      | false => exact .selectRejected hopen hprep
      | true =>
          simp only [sqlite3Prepare_last, readRows_eq, Nat.zero_add]
          change VerifyExit sq now later token db
            (if (sq.found now token db.table).length = 0 then _ else _)
          rcases List.eq_nil_or_concat (sq.found now token db.table) with
            hfound | ⟨rows, column0, hconcat⟩
          · rw [if_pos (by rw [hfound]; rfl)]
            simp only [List.nil_append, List.length_nil, sqlite3Finalize_last,
              sqlite3Close_last]
            exact .noRow hopen hprep hfound
          · have hfound : (sq.found now token db.table).getLast? =
                some column0 := by
              rw [hconcat]
              simp
            have hrows : (leadingRows (sq.stepSelect
                (selectQuery token (strftime now.toTm)) db.table)).getLast? =
                some column0 := hfound
            rw [if_neg (by simp [hconcat])]
            simp only [hrows, Option.map_some, Option.getD_some]
            cases hprep' : sq.prepareUpdate (renewQuery later column0) with
            | false =>
                -- the first statement is lost, and the connection is busy
                have hlost : ∀ h : Handles,
                    (sqlite3Close h.length (h ++
                      [{ closed := false, stmts := [] ++ [0] }])).2 =
                      h ++ [{ closed := false, stmts := [0] }] := by
                  intro h
                  simp
                rw [renewQuery] at hprep'
                simp only [hprep', if_true, sqlite3Prepare_false,
                  sqlite3Finalize_none, hlost]
                exact .updateRejected hopen hprep column0 hfound hprep'
            | true =>
                rw [renewQuery] at hprep'
                have hlost : ∀ h : Handles,
                    (sqlite3Close h.length (sqlite3Finalize (some (h.length, 1))
                      (h ++ [{ closed := false, stmts := [] ++ [0] ++ [0] }]))).2 =
                      h ++ [{ closed := false, stmts := [0, 1] }] := by
                  intro h
                  simp
                simp only [hprep', sqlite3Prepare_last]
                exact hlost db.handles ▸
                  .renewed hopen hprep column0 hfound hprep'

/-! ## Code and table in closed form -/

/-- The first column of the row the call renews: the last row found, when the
database opens and both statements are prepared. -/
def Calls.target (sq : Calls) (now later : LocalTime) (token : List UInt8)
    (table : Table) : Option Int64 :=
  if sq.openOk = true ∧
      sq.prepareSelect (selectQuery token (strftime now.toTm)) = true then
    (sq.found now token table).getLast?.filter fun column0 =>
      sq.prepareUpdate (renewQuery later column0)
  else none

/-- The table after stepping the second statement, if it is reached. -/
def Calls.tableAfter (sq : Calls) (later : LocalTime) (table : Table) :
    Option Int64 → Table
  | none => table
  | some column0 => (sq.stepUpdate (renewQuery later column0) table).2

/-- Code and table depend on the table and the calls only, not on the ledger
of handles. -/
theorem verifyToken_code_table (sq : Calls) (now later : LocalTime)
    (token : List UInt8) (db : Db) :
    (verifyToken sq now later token db).1 =
        (if (sq.target now later token db.table).isSome then 1 else -1) ∧
      (verifyToken sq now later token db).2.table =
        sq.tableAfter later db.table (sq.target now later token db.table) := by
  have hexit := verifyToken_exit sq now later token db
  generalize verifyToken sq now later token db = out at hexit ⊢
  cases hexit with
  | openFailed hopen =>
      have htarget : sq.target now later token db.table = none := by
        simp [Calls.target, hopen]
      rw [htarget]
      exact ⟨rfl, rfl⟩
  | selectRejected hopen hprep =>
      have htarget : sq.target now later token db.table = none := by
        simp [Calls.target, hprep]
      rw [htarget]
      exact ⟨rfl, rfl⟩
  | noRow hopen hprep hfound =>
      have htarget : sq.target now later token db.table = none := by
        simp [Calls.target, hfound]
      rw [htarget]
      exact ⟨rfl, rfl⟩
  | updateRejected hopen hprep column0 hfound hprep' =>
      have htarget : sq.target now later token db.table = none := by
        simp [Calls.target, hfound, hprep']
      rw [htarget]
      exact ⟨rfl, rfl⟩
  | renewed hopen hprep column0 hfound hprep' =>
      have htarget : sq.target now later token db.table = some column0 := by
        simp [Calls.target, hopen, hprep, hfound, hprep']
      rw [htarget]
      exact ⟨rfl, rfl⟩

/-- The code -1 means that no row was renewed. -/
theorem verifyToken_eq_neg_one_iff (sq : Calls) (now later : LocalTime)
    (token : List UInt8) (db : Db) :
    (verifyToken sq now later token db).1 = -1 ↔
      sq.target now later token db.table = none := by
  rw [(verifyToken_code_table sq now later token db).1]
  cases sq.target now later token db.table with
  | none => simp
  | some column0 => simp

/-- A refusal leaves the table as it is. -/
theorem table_of_refused {sq : Calls} {now later : LocalTime}
    {token : List UInt8} {db : Db}
    (h : (verifyToken sq now later token db).1 = -1) :
    (verifyToken sq now later token db).2.table = db.table := by
  rw [verifyToken_eq_neg_one_iff] at h
  rw [(verifyToken_code_table sq now later token db).2, h]
  rfl

end LidarPublisher.Token.VerifyToken

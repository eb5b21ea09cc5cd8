import Mathlib.Algebra.GroupWithZero.Nat
import Mathlib.Data.List.Basic

/-!
# The handle ledger

Connections and prepared statements as `sqlite3.h` documents them: a failed
`sqlite3_open` still hands out a connection, a failed prepare stores `NULL`,
finalizing `NULL` does nothing, and `sqlite3_close` returns `SQLITE_BUSY` and
leaves the connection open while a statement of it is not finalized.  A
statement is recorded with its connection, so a handle without an owner cannot
be written down.
-/

namespace LidarPublisher.Sqlite.Ledger

/-- A connection: whether it was closed, and how often each of its statements
was finalized. -/
structure Connection where
  closed : Bool
  stmts : List Nat
  deriving DecidableEq, Repr

/-- All connections handed out so far, oldest first. -/
abbrev Handles := List Connection

/-- `sqlite3_stmt *`: the connection and the statement's number on it. -/
abbrev Stmt := Nat × Nat

/-- `sqlite3_open`: a new connection, whatever the result code. -/
def sqlite3Open (h : Handles) : Nat × Handles :=
  (h.length, h ++ [{ closed := false, stmts := [] }])

/-- `sqlite3_prepare_v2`: the statement is `NULL` on failure. -/
def sqlite3Prepare (ok : Bool) (conn : Nat) (h : Handles) :
    Option Stmt × Handles :=
  if ok then
    match h[conn]? with
    | some c =>
        (some (conn, c.stmts.length),
          h.modify conn fun c => { c with stmts := c.stmts ++ [0] })
    | none => (none, h)
  else (none, h)

/-- `sqlite3_finalize`. -/
def sqlite3Finalize (stmt : Option Stmt) (h : Handles) : Handles :=
  match stmt with
  | none => h
  | some (conn, i) =>
      h.modify conn fun c => { c with stmts := c.stmts.modify i (· + 1) }

/-- `sqlite3_close`: `false` stands for `SQLITE_BUSY`. -/
def sqlite3Close (conn : Nat) (h : Handles) : Bool × Handles :=
  match h[conn]? with
  | some c =>
      if 0 ∈ c.stmts then (false, h)
      else (true, h.modify conn fun c => { c with closed := true })
  | none => (false, h)

/-! ## Counting -/

/-- Live handles of a connection: itself unless closed, and its statements that
were never finalized. -/
def Connection.live (c : Connection) : Nat :=
  (if c.closed then 0 else 1) + c.stmts.count 0

/-- The number of live handles. -/
def live (h : Handles) : Nat := (h.map Connection.live).sum

/-- The connection was closed and each of its statements finalized exactly
once. -/
def Connection.Settled (c : Connection) : Prop :=
  c.closed = true ∧ ∀ n ∈ c.stmts, n = 1

instance (c : Connection) : Decidable c.Settled :=
  inferInstanceAs (Decidable (_ ∧ _))

/-- Between `h` and `h'` every connection handed out was closed, every statement
prepared was finalized exactly once, and older handles were left alone. -/
def Balanced (h h' : Handles) : Prop :=
  ∃ new, h' = h ++ new ∧ ∀ c ∈ new, c.Settled

theorem Connection.Settled.live_eq_zero {c : Connection} (h : c.Settled) :
    c.live = 0 := by
  have hcount : c.stmts.count 0 = 0 := by
    rw [List.count_eq_zero]
    intro h0
    exact absurd (h.2 0 h0) (by decide)
  simp [Connection.live, h.1, hcount]

@[simp] theorem live_append (h h' : Handles) :
    live (h ++ h') = live h + live h' := by
  simp [live]

/-- Balanced handles leave the number of live ones as it was. -/
theorem Balanced.live_eq {h h' : Handles} (hb : Balanced h h') :
    live h' = live h := by
  rcases hb with ⟨new, rfl, hnew⟩
  have hzero : live new = 0 := by
    induction new with
    | nil => rfl
    | cons c new ih =>
        obtain ⟨hc, hrest⟩ := List.forall_mem_cons.mp hnew
        show c.live + live new = 0
        rw [hc.live_eq_zero, ih hrest]
  rw [live_append, hzero, Nat.add_zero]

/-- One new connection is balanced exactly when it is settled. -/
theorem balanced_append_singleton_iff (h : Handles) (c : Connection) :
    Balanced h (h ++ [c]) ↔ c.Settled := by
  constructor
  · intro h
    rcases h with ⟨new, hnew, hall⟩
    obtain rfl := List.append_cancel_left hnew
    exact hall c (by simp)
  · intro hc
    exact ⟨[c], rfl, by simpa using hc⟩

/-! ## The calls on the newest connection -/

@[simp] theorem modify_length_append_singleton (h : Handles) (c : Connection)
    (f : Connection → Connection) :
    (h ++ [c]).modify h.length f = h ++ [f c] := by
  induction h with
  | nil => rfl
  | cons d h ih => simpa using ih

@[simp] theorem sqlite3Prepare_last (h : Handles) (c : Connection) :
    sqlite3Prepare true h.length (h ++ [c]) =
      (some (h.length, c.stmts.length),
        h ++ [{ c with stmts := c.stmts ++ [0] }]) := by
  simp [sqlite3Prepare]

@[simp] theorem sqlite3Prepare_false (conn : Nat) (h : Handles) :
    sqlite3Prepare false conn h = (none, h) := rfl

@[simp] theorem sqlite3Finalize_none (h : Handles) :
    sqlite3Finalize none h = h := rfl

@[simp] theorem sqlite3Finalize_last (h : Handles) (c : Connection) (i : Nat) :
    sqlite3Finalize (some (h.length, i)) (h ++ [c]) =
      h ++ [{ c with stmts := c.stmts.modify i (· + 1) }] := by
  simp [sqlite3Finalize]

@[simp] theorem sqlite3Close_last (h : Handles) (c : Connection) :
    sqlite3Close h.length (h ++ [c]) =
      if 0 ∈ c.stmts then (false, h ++ [c])
      else (true, h ++ [{ c with closed := true }]) := by
  simp [sqlite3Close]

end LidarPublisher.Sqlite.Ledger

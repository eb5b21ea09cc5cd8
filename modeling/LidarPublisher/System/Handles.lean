import LidarPublisher.Lib.Accounting
import LidarPublisher.System.Verification

/-!
# The SQLite handles the process loses

The process opens a connection for every call of `verifyToken` and closes it on
one path only.  The handles open at any time are those lost so far; how many
that can be depends on who sends requests before a session is open.
-/

namespace LidarPublisher.System.Handles

open LidarPublisher.Lib.Run
open LidarPublisher.Lib.Accounting
open LidarPublisher.Lib.Bytes
open LidarPublisher.Sqlite.Lexer
open LidarPublisher.Sqlite.Ledger
open LidarPublisher.Sqlite.Execute
open LidarPublisher.Token.Clock
open LidarPublisher.Token.Query
open LidarPublisher.Token.VerifyToken
open LidarPublisher.Token.Acceptance
open LidarPublisher.Udp
open LidarPublisher.Udp.ParseRequest
open LidarPublisher.Udp.HandleReceive
open LidarPublisher.Udp.RequestGrammar (Command TokenField)
open LidarPublisher.System.Step
open LidarPublisher.System.Verification

variable (e : Engine)

/-! ## Lost handles -/

/-- The handles that a call of `verifyToken` leaves open: the connection when
the open or the first prepare fails, and both a statement and the connection
once a row was found. -/
def lost (sq : Calls) (now : LocalTime) (token : List UInt8) (table : Table) :
    Nat :=
  if sq.openOk = false then 1
  else if sq.prepareSelect (selectQuery token (strftime now.toTm)) = false then 1
  else if sq.found now token table = [] then 0
  else 2

theorem live_verifyToken (sq : Calls) (now later : LocalTime)
    (token : List UInt8) (db : Db) :
    live (verifyToken sq now later token db).2.handles =
      live db.handles + lost sq now token db.table := by
  have hexit := verifyToken_exit sq now later token db
  generalize verifyToken sq now later token db = out at hexit ⊢
  unfold lost
  cases hexit with
  | openFailed hopen =>
      rw [if_pos hopen, live_append]
      rfl
  | selectRejected hopen hprep =>
      rw [if_neg (by simp [hopen]), if_pos hprep, live_append]
      rfl
  | noRow hopen hprep hfound =>
      rw [if_neg (by simp [hopen]), if_neg (by simp [hprep]), if_pos hfound,
        live_append]
      rfl
  | updateRejected hopen hprep column0 hfound hprep' =>
      rw [if_neg (by simp [hopen]), if_neg (by simp [hprep]),
        if_neg (fun hnil => by simp [hnil] at hfound), live_append]
      rfl
  | renewed hopen hprep column0 hfound hprep' =>
      rw [if_neg (by simp [hopen]), if_neg (by simp [hprep]),
        if_neg (fun hnil => by simp [hnil] at hfound), live_append]
      rfl

/-- The handles lost by the call an event leads to. -/
def Process.loses (p : Process) (ev : Event) : Nat :=
  match Process.call p ev with
  | none => 0
  | some (o, token) =>
      lost (Calls.faulty (e.returning o.rows) o.faults) o.now token p.db.table

theorem live_step (p : Process) (ev : Event) :
    live (step e p ev).db.handles =
      live p.db.handles + Process.loses e p ev := by
  have hdb := (step_settle e p ev).2
  unfold Process.loses
  cases hcall : Process.call p ev with
  | none =>
      have hsame : (step e p ev).db.handles = p.db.handles := by
        rw [hdb, hcall]
        cases ev <;> rfl
      rw [hsame]
      rfl
  | some call =>
      rcases call with ⟨o, token⟩
      cases ev with
      | completion c o' =>
          rw [hdb, hcall]
          exact live_verifyToken _ o.now o.later token p.db
      | write table => exact absurd hcall (by simp [Process.call])
      | start => exact absurd hcall (by simp [Process.call])
      | rosShutdown => exact absurd hcall (by simp [Process.call])
      | publisher ros => exact absurd hcall (by simp [Process.call])

/-- **The ledger of a run.**  The SQLite handles open at any time are those lost
by the calls of `verifyToken` so far. -/
theorem live_after (garbage : Buf) (table : Table) (es : List Event) :
    live (Process.after e garbage table es).db.handles =
      total (step e) (Process.loses e) (Process.init garbage table) es := by
  have hgrowth : live (Process.after e garbage table es).db.handles =
      live (Process.init garbage table).db.handles +
        total (step e) (Process.loses e) (Process.init garbage table) es :=
    growth (fun _ => True) (P := fun _ _ => True) (fun _ _ _ _ => trivial)
      (fun p : Process => live p.db.handles) (Process.loses e)
      (fun p ev _ _ => live_step e p ev) trivial
      (everyStep_of_forall_mem _ fun _ _ => trivial)
  rw [show live (Process.init garbage table).db.handles = 0 from rfl,
    Nat.zero_add] at hgrowth
  exact hgrowth

/-! ## Honest clients -/

theorem prepareSelect_returning (rows : OtherRows) (f : Faults) :
    (Calls.faulty (e.returning rows) f).prepareSelect =
      (Calls.faulty e f).prepareSelect := by
  funext text
  dsimp only [Calls.faulty]
  rw [Statement.compiles_returning]

/-- Before a session is open, a request whose query is not compiled costs a
handle and leaves everything as it was for the next one. -/
theorem lost_of_rejected {p : Process}
    (harmed : p.node.socket.outstanding ≠ 0) (hclosed : p.node.server.token = [])
    (c' : Command) {t : TokenField} {o : Occasion}
    (h : (Calls.faulty e o.faults).openOk = false ∨
      (Calls.faulty e o.faults).prepareSelect
        (selectQuery t.bytes (strftime o.now.toTm)) = false) :
    (step e p (send c' t o)).node.socket.outstanding ≠ 0 ∧
      (step e p (send c' t o)).node.server.token = [] ∧
      live (step e p (send c' t o)).db.handles = live p.db.handles + 1 := by
  have hcall := call_send harmed hclosed c' t o
  rw [← prepareSelect_returning e o.rows] at h
  refine ⟨?_, ?_, ?_⟩
  · have hnode := (receiver e).state_step p (send c' t o)
    change (step e p (send c' t o)).node =
      Receiver.afterArrival (oracle e) p.node _ at hnode
    rw [hnode]
    unfold Receiver.afterArrival Receiver.arrive
    rw [if_neg harmed, Receiver.outstanding_hear, if_neg (by simp)]
    exact Nat.succ_ne_zero _
  · rw [(step_settle e p _).1, hcall]
    refine if_pos ?_
    show (verifyToken _ _ _ _ _).1 = -1
    rw [verifyToken_eq_neg_one_iff]
    unfold Calls.target
    refine if_neg fun hboth => ?_
    rcases h with hopen | hprep
    · exact absurd (hopen.symm.trans hboth.1) (by decide)
    · exact absurd (hprep.symm.trans hboth.2) (by decide)
  · rw [live_step]
    unfold Process.loses
    rw [hcall]
    dsimp only
    unfold lost
    split
    · rfl
    · next hopen =>
        rw [if_pos (h.resolve_left hopen)]

/-- **Anyone can use up the handles.**  As long as no session is open and the
socket is armed, `n` copies of a request whose query SQLite does not compile cost
exactly `n` handles, for every `n`. -/
theorem live_flood (garbage : Buf) (table : Table) (pre : List Event)
    (c' : Command) (t : TokenField) (o : Occasion) (n : Nat)
    (harmed : (Process.after e garbage table pre).node.socket.outstanding ≠ 0)
    (hclosed : (Process.after e garbage table pre).node.server.token = [])
    (h : (Calls.faulty e o.faults).openOk = false ∨
      (Calls.faulty e o.faults).prepareSelect
        (selectQuery t.bytes (strftime o.now.toTm)) = false) :
    live (Process.after e garbage table
        (pre ++ List.replicate n (send c' t o))).db.handles =
      live (Process.after e garbage table pre).db.handles + n := by
  rw [after_append]
  generalize Process.after e garbage table pre = p at harmed hclosed ⊢
  induction n generalizing p with
  | zero => rfl
  | succ n ih =>
      rcases lost_of_rejected e harmed hclosed c' h with
        ⟨harmed', hclosed', hlive⟩
      rw [List.replicate_succ, runFrom_cons, ih _ harmed' hclosed', hlive,
        Nat.add_assoc, Nat.add_comm 1]

/-- Three requests whose query does not compile, here because preparing it
fails. -/
theorem live_flood_three :
    live (Process.after Engine.plain (Vector.replicate readBufSize 0) []
      ([] ++ List.replicate 3 (send .start fieldOfAs
        { Occasion.at noon with
          faults := { Faults.none with prepareError := true } }))).db.handles = 0 + 3 :=
  live_flood Engine.plain (Vector.replicate readBufSize 0) [] [] .start fieldOfAs
    _ 3 (by decide) rfl (Or.inr rfl)

end LidarPublisher.System.Handles

import LidarPublisher.Lib.Simulation
import LidarPublisher.Polling.StartPolling
import LidarPublisher.Udp.Receiver
import LidarPublisher.Udp.RequestGrammar
import LidarPublisher.Udp.SessionExpiry

/-!
# The whole process

Both threads, the members they share and the database, which other programs
write to as well.  A datagram is handled with the modelled `verifyToken`; a
receive operation must be outstanding for it to be noticed.  The publisher, the
session and the receiver studied on their own are views of this one system.
-/

namespace LidarPublisher.System.Step

open LidarPublisher.Lib.Run
open LidarPublisher.Lib.Simulation
open LidarPublisher.Sqlite.Execute
open LidarPublisher.Token.Clock
open LidarPublisher.Token.VerifyToken
open LidarPublisher.Token.Acceptance
open LidarPublisher.Udp
open LidarPublisher.Udp.ParseRequest
open LidarPublisher.Udp.HandleReceive
open LidarPublisher.Udp.Isolation (merged)
open LidarPublisher.Udp.RequestGrammar (Command TokenField)
open LidarPublisher.Udp.SessionExpiry (Session Request)
open LidarPublisher.Polling
open LidarPublisher.Polling.StartPolling (Publisher RosAnswer System)

/-- The threads of the process and the database. -/
structure Process where
  node : Node
  publisher : Publisher
  db : Db
  deriving DecidableEq, Repr

/-- What `main` builds, beside a database with this table. -/
def Process.init (garbage : Buf) (table : Table) : Process :=
  { node := Node.init garbage, publisher := Publisher.init
    db := { table := table, handles := [] } }

/-- What a call of `verifyToken` meets: the SQLite calls that fail, the rows of a
query that was meant to be another and the two clock readings. -/
structure Occasion where
  faults : Faults
  rows : OtherRows
  now : LocalTime
  later : LocalTime

inductive Event
  /-- A receive operation completes. -/
  | completion (c : Completion) (o : Occasion)
  /-- Another program leaves this table. -/
  | write (table : Table)
  /-- `lidarserver::start`. -/
  | start
  | rosShutdown
  /-- The publisher thread takes a step. -/
  | publisher (ros : RosAnswer)

variable (e : Engine)

/-- `verifyToken` on this occasion. -/
def Occasion.verify (o : Occasion) : List UInt8 → Db → Int × Db :=
  verifyToken (Calls.faulty (e.returning o.rows) o.faults) o.now o.later

/-- The handler of a completion, with the result of `parseRequest` where it was
called. -/
def Process.handle (p : Process) (c : Completion) (o : Occasion) :
    Option Int × Process :=
  let (res, node, db) := complete (o.verify e) c p.node p.db
  (res, { p with node := node, db := db })

def step (p : Process) : Event → Process
  | .completion c o =>
      if p.node.socket.outstanding = 0 then p else (p.handle e c o).2
  | .write table => { p with db := { p.db with table := table } }
  | .start =>
      { p with publisher := { p.publisher with initialized := true } }
  | .rosShutdown => { p with publisher := { p.publisher with rosOk := false } }
  | .publisher ros =>
      { p with publisher := p.publisher.step p.node.server.polling ros }

/-- The state after the events `es` of a new process. -/
def Process.after (garbage : Buf) (table : Table) (es : List Event) : Process :=
  runFrom (step e) (Process.init garbage table) es

theorem after_append (garbage : Buf) (table : Table) (es fs : List Event) :
    Process.after e garbage table (es ++ fs) =
      runFrom (step e) (Process.after e garbage table es) fs :=
  runFrom_append _ es fs

/-- A well-formed request that arrives whole. -/
def send (c' : Command) (t : TokenField) (o : Occasion) : Event :=
  .completion
    { datagram := .full (RequestGrammar.request c' t), error := .success } o

/-- An occasion on which all SQLite calls succeed. -/
def Occasion.at (now : LocalTime) : Occasion :=
  { faults := .none, rows := fun _ _ => [], now := now, later := now }

/-- One step of the publisher thread, without parameters. -/
def tick : Event := .publisher { now := 0, frameId := none }

/-- A token field of sixteen `A`s. -/
def fieldOfAs : TokenField where
  bytes := sixteenAs.bytes
  length_eq := List.length_replicate
  noNul := sixteenAs.noNul
  noTerminator k h := by
    have hcr := List.eq_of_mem_replicate (List.mem_of_mem_take h.2.1)
    exact absurd hcr (by decide)

/-! ## Worlds that look alike -/

section Worlds

variable {ω ω' : Type} {verifyToken : List UInt8 → ω → Int × ω}
  {verifyToken' : List UInt8 → ω' → Int × ω'} (f : ω → ω')

/-- `parseRequest` sees the world through `verifyToken` only. -/
theorem parseRequest_map {w : ω}
    (h : ∀ tok, verifyToken' tok (f w) =
      ((verifyToken tok w).1, f (verifyToken tok w).2))
    (buf : Buf) (len : Nat) (hlen : len ≤ readBufSize) (s : Server) :
    parseRequest verifyToken' buf len hlen s (f w) =
      ((parseRequest verifyToken buf len hlen s w).1,
        (parseRequest verifyToken buf len hlen s w).2.1,
        f (parseRequest verifyToken buf len hlen s w).2.2) := by
  unfold parseRequest
  simp only [h]
  split
  · split
    · split
      · rfl
      · rfl
    · rfl
  · rfl

theorem complete_map {w : ω}
    (h : ∀ tok, verifyToken' tok (f w) =
      ((verifyToken tok w).1, f (verifyToken tok w).2))
    (c : Completion) (n : Node) :
    complete verifyToken' c n (f w) =
      ((complete verifyToken c n w).1, (complete verifyToken c n w).2.1,
        f (complete verifyToken c n w).2.2) := by
  unfold complete handleReceive
  rw [parseRequest_map f h]
  split
  · rfl
  · rfl

end Worlds

/-! ## The publisher's view -/

/-- `verifyToken` as one oracle over databases and occasions. -/
def oracle (tok : List UInt8) (w : Db × Occasion) : Int × (Db × Occasion) :=
  let (res, db) := w.2.verify e tok w.1
  (res, (db, w.2))

theorem complete_oracle (c : Completion) (o : Occasion) (n : Node) (db : Db) :
    complete (oracle e) c n (db, o) =
      ((complete (o.verify e) c n db).1, (complete (o.verify e) c n db).2.1,
        ((complete (o.verify e) c n db).2.2, o)) :=
  complete_map (fun db => (db, o)) (fun _ => rfl) c n

/-- Without the database: the system of request handler and publisher. -/
def system : View (step e) (StartPolling.step (oracle e)) where
  state p := { node := p.node, publisher := p.publisher }
  events p
    | .completion c o =>
        if p.node.socket.outstanding = 0 then []
        else [.completion c (p.db, o)]
    | .write _ => []
    | .start => [.start]
    | .rosShutdown => [.rosShutdown]
    | .publisher ros => [.publisher ros]
  state_step p ev := by
    cases ev with
    | completion c o =>
        unfold step
        dsimp only
        split
        · rfl
        · rw [runFrom_cons, runFrom_nil]
          unfold StartPolling.step
          dsimp only
          rw [complete_oracle]
          rfl
    | write table => rfl
    | start => rfl
    | rosShutdown => rfl
    | publisher ros => rfl

/-! ## The session's view -/

/-- The handler runs and finds no error. -/
def Heard (p : Process) (c : Completion) : Prop :=
  p.node.socket.outstanding ≠ 0 ∧ c.error ≠ .other

instance (p : Process) (c : Completion) : Decidable (Heard p c) :=
  inferInstanceAs (Decidable (_ ∧ _))

/-- The request that `parseRequest` gets to see. -/
def Process.request (p : Process) (c : Completion) (o : Occasion) : Request :=
  { buf := merged c.datagram p.node, faults := o.faults, rows := o.rows
    now := o.now, later := o.later }

theorem handle_of_error (p : Process) {c : Completion} (o : Occasion)
    (h : c.error = .other) :
    p.handle e c o = (none, { p with node := p.node.receive c.datagram }) := by
  unfold Process.handle complete handleReceive
  rw [if_neg (by simp [h])]

theorem handle_of_heard (p : Process) {c : Completion} (o : Occasion)
    (h : c.error ≠ .other) :
    let out := (Session.mk p.node.server p.db).parse e (p.request c o)
    (p.handle e c o).1 = some out.1 ∧
      (p.handle e c o).2.node.server =
        { out.2.1 with polling := pollingAfter out.1 out.2.1.polling } ∧
      (p.handle e c o).2.db = out.2.2 := by
  have hok : c.error = .success ∨ c.error = .messageSize := by
    cases herr : c.error with
    | success => exact Or.inl rfl
    | messageSize => exact Or.inr rfl
    | other => exact absurd herr h
  unfold Process.handle complete handleReceive
  rw [if_pos hok]
  dsimp only
  rw [respond_eq]
  exact ⟨rfl, rfl, rfl⟩

/-- Server and database: the requests heard, and the other writers. -/
def session : View (step e) (SessionExpiry.step e) where
  state p := { server := p.node.server, db := p.db }
  events p
    | .completion c o => if Heard p c then [.request (p.request c o)] else []
    | .write table => [.write table]
    | _ => []
  state_step p ev := by
    cases ev with
    | completion c o =>
        unfold step
        dsimp only
        by_cases hdeaf : p.node.socket.outstanding = 0
        · rw [if_pos hdeaf, if_neg (fun h => h.1 hdeaf)]
          rfl
        · rw [if_neg hdeaf]
          by_cases herr : c.error = .other
          · rw [handle_of_error e p o herr, if_neg (fun h => h.2 herr)]
            rfl
          · rw [if_pos ⟨hdeaf, herr⟩]
            rcases handle_of_heard e p o herr with ⟨-, hserver, hdb⟩
            rw [hserver, hdb]
            rfl
    | write table => rfl
    | start => rfl
    | rosShutdown => rfl
    | publisher ros => rfl

/-! ## The receiver's view -/

/-- The socket handler: the completions. -/
def receiver : View (step e) (Receiver.afterArrival (oracle e)) where
  state p := p.node
  events p
    | .completion c o => [(c, (p.db, o))]
    | _ => []
  state_step p ev := by
    cases ev with
    | completion c o =>
        unfold step
        dsimp only
        rw [runFrom_cons, runFrom_nil]
        unfold Receiver.afterArrival Receiver.arrive Isolation.hear
        split
        · rfl
        · rw [complete_oracle]
          rfl
    | write table => rfl
    | start => rfl
    | rosShutdown => rfl
    | publisher ros => rfl

end LidarPublisher.System.Step

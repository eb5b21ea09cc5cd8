import LidarPublisher.System.Step

/-!
# An open session and the database

The token is looked at while none is cached.  Once one is, the process is a
machine of its own: no table, no clock and no failing call has any influence on
it, and it does not touch the database again.
-/

namespace LidarPublisher.System.OpenSession

open LidarPublisher.Lib.Run
open LidarPublisher.Lib.Simulation
open LidarPublisher.Sqlite.Execute
open LidarPublisher.Token.Query (noon)
open LidarPublisher.Token.VerifyToken
open LidarPublisher.Token.Acceptance (sixteenAsTable)
open LidarPublisher.Udp.ParseRequest
open LidarPublisher.Udp.HandleReceive
open LidarPublisher.Polling.StartPolling (Publisher RosAnswer)
open LidarPublisher.System.Step

/-! ## Requests of an open session -/

section Oracle

variable {ω ω' : Type} (verifyToken : List UInt8 → ω → Int × ω)
  (verifyToken' : List UInt8 → ω' → Int × ω')

theorem complete_of_cached {n : Node} (h : n.server.token ≠ [])
    (c : Completion) (w : ω) (w' : ω') :
    (complete verifyToken c n w).2.1 = (complete verifyToken' c n w').2.1 ∧
      (complete verifyToken c n w).2.1.server.token = n.server.token ∧
      (complete verifyToken c n w).2.2 = w := by
  have htoken : ∀ res n', (respond res n').server.token = n'.server.token := by
    intro res n'
    rw [respond_eq]
    rfl
  unfold complete handleReceive
  split
  · rcases parseRequest_of_cached verifyToken verifyToken' h
      (n.receive c.datagram).socket.readBuf readBufSize (Nat.le_refl _) w w' with
      ⟨hcode, hserver, hsame, hworld⟩
    dsimp only
    refine ⟨?_, ?_, hworld⟩
    · show respond (parseRequest _ _ _ _ n.server w).1 _ = _
      rw [hcode]
      change respond _ { n.receive c.datagram with
        server := (parseRequest verifyToken _ _ _ n.server w).2.1 } = _
      rw [hserver]
      rfl
    · rw [htoken]
      exact hsame
  · exact ⟨rfl, rfl, rfl⟩

end Oracle

/-! ## The process of an open session -/

/-- What reaches the process, but for the database and the clock it reads. -/
inductive Stimulus
  | completion (c : Completion)
  | start
  | rosShutdown
  | publisher (ros : RosAnswer)

/-- The stimulus of an event; a write to the table is none. -/
def stimulus : Event → List Stimulus
  | .completion c _ => [.completion c]
  | .write _ => []
  | .start => [.start]
  | .rosShutdown => [.rosShutdown]
  | .publisher ros => [.publisher ros]

/-- The table the other programs left, if they wrote. -/
def written (table : Table) (es : List Event) : Table :=
  es.foldl (fun table ev =>
    match ev with
    | .write table' => table'
    | _ => table) table

/-- The two threads, without a database. -/
structure Threads where
  node : Node
  publisher : Publisher
  deriving DecidableEq, Repr

def Process.threads (p : Process) : Threads :=
  { node := p.node, publisher := p.publisher }

/-- A step of the threads in an open session, in which `verifyToken` is not
called. -/
def Threads.react (t : Threads) : Stimulus → Threads
  | .completion c =>
      if t.node.socket.outstanding = 0 then t
      else { t with node := (complete (fun _ w => (-1, w)) c t.node ()).2.1 }
  | .start =>
      { t with publisher := { t.publisher with initialized := true } }
  | .rosShutdown => { t with publisher := { t.publisher with rosOk := false } }
  | .publisher ros =>
      { t with publisher := t.publisher.step t.node.server.polling ros }

variable (e : Engine)

/-- In an open session a step keeps the token and the handles, takes a table
from other programs only, and moves the threads as the stimulus says. -/
theorem step_of_open {p : Process} (h : p.node.server.token ≠ []) (ev : Event) :
    (step e p ev).node.server.token = p.node.server.token ∧
      (step e p ev).db.handles = p.db.handles ∧
      (step e p ev).db.table = written p.db.table [ev] ∧
      Process.threads (step e p ev) =
        runFrom Threads.react (Process.threads p) (stimulus ev) := by
  cases ev with
  | completion c o =>
      unfold step
      dsimp only
      by_cases hdeaf : p.node.socket.outstanding = 0
      · rw [if_pos hdeaf]
        refine ⟨rfl, rfl, rfl, ?_⟩
        show Process.threads p = Threads.react (Process.threads p) (.completion c)
        unfold Threads.react
        exact (if_pos hdeaf).symm
      · rw [if_neg hdeaf]
        rcases complete_of_cached (o.verify e) (fun _ w => (-1, w)) h c p.db ()
          with ⟨hnode, htoken, hdb⟩
        have hdb' : (p.handle e c o).2.db = p.db := hdb
        refine ⟨htoken, by rw [hdb'], by rw [hdb']; rfl, ?_⟩
        show Process.threads (p.handle e c o).2 =
          Threads.react (Process.threads p) (.completion c)
        unfold Threads.react
        dsimp only
        rw [show (Process.threads p).node = p.node from rfl, if_neg hdeaf, ← hnode]
        rfl
  | write table => exact ⟨rfl, rfl, rfl, rfl⟩
  | start => exact ⟨rfl, rfl, rfl, rfl⟩
  | rosShutdown => exact ⟨rfl, rfl, rfl, rfl⟩
  | publisher ros => exact ⟨rfl, rfl, rfl, rfl⟩

theorem written_append (table : Table) (es fs : List Event) :
    written table (es ++ fs) = written (written table es) fs :=
  List.foldl_append

/-- What a run leaves of the database of an open session. -/
theorem database_of_open {p : Process} (h : p.node.server.token ≠ [])
    (es : List Event) :
    (runFrom (step e) p es).node.server.token = p.node.server.token ∧
      (runFrom (step e) p es).db =
        { table := written p.db.table es, handles := p.db.handles } := by
  induction es generalizing p with
  | nil => exact ⟨rfl, rfl⟩
  | cons ev es ih =>
      rcases step_of_open e h ev with ⟨htoken, hhandles, htable, -⟩
      rcases ih (htoken ▸ h) with ⟨htoken', hdb⟩
      rw [runFrom_cons]
      refine ⟨htoken'.trans htoken, ?_⟩
      rw [hdb, hhandles, htable, ← written_append]
      rfl

theorem threads_of_open {p : Process} (h : p.node.server.token ≠ [])
    (es : List Event) :
    Process.threads (runFrom (step e) p es) =
      runFrom Threads.react (Process.threads p) (es.flatMap stimulus) :=
  state_runFrom_of_inv (fun p : Process => p.node.server.token ≠ [])
    (fun _ ev hp => (step_of_open e hp ev).1 ▸ hp)
    (fun _ ev hp => (step_of_open e hp ev).2.2.2) h es

/-- **An open session is out of the database's reach.**  From a state with a
cached token on, two continuations with the same datagrams and the same steps of
the publisher lead to the same state of both threads, whatever is written to the
table, whatever time it is and whatever SQLite call would fail; and the process
leaves the token, the table and the SQLite handles alone. -/
theorem open_session_closed (garbage : Buf) (table : Table)
    (pre post post' : List Event)
    (h : (Process.after e garbage table pre).node.server.token ≠ [])
    (hsame : post.flatMap stimulus = post'.flatMap stimulus) :
    let p := Process.after e garbage table pre
    let q := Process.after e garbage table (pre ++ post)
    let q' := Process.after e garbage table (pre ++ post')
    q.node = q'.node ∧ q.publisher = q'.publisher ∧
      q.node.server.token = p.node.server.token ∧
      q.db = { table := written p.db.table post, handles := p.db.handles } := by
  intro p q q'
  have hthreads : Process.threads q = Process.threads q' := by
    show Process.threads (Process.after e garbage table (pre ++ post)) =
      Process.threads (Process.after e garbage table (pre ++ post'))
    rw [after_append, after_append, threads_of_open e h, threads_of_open e h,
      hsame]
  have hq : q = runFrom (step e) p post := after_append e garbage table pre post
  rcases database_of_open e h post with ⟨htoken, hdb⟩
  rw [← hq] at htoken hdb
  exact ⟨congrArg Threads.node hthreads, congrArg Threads.publisher hthreads,
    htoken, hdb⟩

/-- A stop request in a session whose token was deleted meanwhile is handled as
if it were still there. -/
theorem open_session_closed_deleted :
    (Process.after Engine.plain (Vector.replicate readBufSize 0) sixteenAsTable
        ([send .start fieldOfAs (.at noon)] ++
          [.write [], send .stop fieldOfAs (.at noon)])).node =
      (Process.after Engine.plain (Vector.replicate readBufSize 0) sixteenAsTable
        ([send .start fieldOfAs (.at noon)] ++
          [send .stop fieldOfAs (.at noon)])).node :=
  (open_session_closed Engine.plain (Vector.replicate readBufSize 0)
    sixteenAsTable [send .start fieldOfAs (.at noon)]
    [.write [], send .stop fieldOfAs (.at noon)]
    [send .stop fieldOfAs (.at noon)] (by decide +kernel) rfl).1

end LidarPublisher.System.OpenSession

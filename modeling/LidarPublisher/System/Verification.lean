import LidarPublisher.System.Step

/-!
# The calls of `verifyToken` in a run

A step calls `verifyToken` at most once: for a request that is heard, has its
terminator and meets an empty cache.  What the process does to the database is a
matter of these calls.
-/

namespace LidarPublisher.System.Verification

open LidarPublisher.Sqlite.Execute
open LidarPublisher.Token.Clock
open LidarPublisher.Token.Query
open LidarPublisher.Token.VerifyToken
open LidarPublisher.Token.Acceptance
open LidarPublisher.Udp.ParseRequest
open LidarPublisher.Udp.HandleReceive
open LidarPublisher.Udp.Isolation (merged merged_full)
open LidarPublisher.Udp.RequestGrammar (Command TokenField scan21_request
  extractToken_request)
open LidarPublisher.Udp.SessionExpiry (Session)
open LidarPublisher.System.Step

/-! ## When it is called -/

/-- The occasion and the token of the call an event leads to. -/
def Process.call (p : Process) : Event → Option (Occasion × List UInt8)
  | .completion c o =>
      if Heard p c ∧
          (scan21 (merged c.datagram p.node) p.node.server.readBuf).r = true ∧
          p.node.server.token = [] then
        some (o, presented21 (merged c.datagram p.node) p.node.server)
      else none
  | _ => none

variable (e : Engine)

/-- The cached token and the database after the call an event leads to. -/
def Process.settle (p : Process) :
    Option (Occasion × List UInt8) → List UInt8 × Db
  | none => (p.node.server.token, p.db)
  | some (o, token) =>
      (if (o.verify e token p.db).1 = -1 then [] else token,
        (o.verify e token p.db).2)

/-- A step settles the call it leads to; only another program's write changes
the database otherwise. -/
theorem step_settle (p : Process) (ev : Event) :
    (step e p ev).node.server.token =
        (Process.settle e p (Process.call p ev)).1 ∧
      (step e p ev).db =
        match ev with
        | .write table => { p.db with table := table }
        | _ => (Process.settle e p (Process.call p ev)).2 := by
  cases ev with
  | completion c o =>
      unfold step Process.call
      dsimp only
      by_cases hdeaf : p.node.socket.outstanding = 0
      · rw [if_pos hdeaf, if_neg (fun h => h.1.1 hdeaf)]
        exact ⟨rfl, rfl⟩
      · rw [if_neg hdeaf]
        by_cases herr : c.error = .other
        · rw [handle_of_error e p o herr, if_neg (fun h => h.1.2 herr)]
          exact ⟨rfl, rfl⟩
        · rcases handle_of_heard e p o herr with ⟨-, hserver, hdb⟩
          rw [hserver, hdb]
          have hexit := parse21_exit (o.verify e) (merged c.datagram p.node)
            p.node.server p.db
          change ParseExit _ _ _ _ _ _
            ((Session.mk p.node.server p.db).parse e (p.request c o)) at hexit
          generalize (Session.mk p.node.server p.db).parse e (p.request c o) = out
            at hexit ⊢
          cases hexit with
          | noTerminator hr =>
              rw [if_neg (by simp [hr])]
              exact ⟨rfl, rfl⟩
          | refused hr htok hans =>
              rw [if_pos ⟨⟨hdeaf, herr⟩, hr, htok⟩]
              refine ⟨?_, rfl⟩
              show p.node.server.token = if _ then _ else _
              rw [htok]
              exact (if_pos hans).symm
          | verified hr htok hans =>
              rw [if_pos ⟨⟨hdeaf, herr⟩, hr, htok⟩]
              exact ⟨(if_neg hans).symm, rfl⟩
          | cached hr htok =>
              rw [if_neg (fun h => htok h.2.2)]
              exact ⟨rfl, rfl⟩
  | write table => exact ⟨rfl, rfl⟩
  | start => exact ⟨rfl, rfl⟩
  | rosShutdown => exact ⟨rfl, rfl⟩
  | publisher ros => exact ⟨rfl, rfl⟩

/-- A whole request that is heard before a session is open is verified. -/
theorem call_send {p : Process} (harmed : p.node.socket.outstanding ≠ 0)
    (hclosed : p.node.server.token = []) (c' : Command) (t : TokenField)
    (o : Occasion) : Process.call p (send c' t o) = some (o, t.bytes) := by
  rcases scan21_request c' t p.node.server.readBuf with ⟨hr, hbuf⟩
  unfold Process.call send
  dsimp only
  rw [merged_full, if_pos ⟨⟨harmed, by simp⟩, hr, hclosed⟩]
  show some (o, extractToken (scan21 _ _).readBuf) = _
  rw [hbuf, extractToken_request]

end LidarPublisher.System.Verification

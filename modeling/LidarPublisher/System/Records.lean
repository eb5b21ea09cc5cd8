import LidarPublisher.Lib.History
import LidarPublisher.System.Verification

/-!
# What the process does to the table

Between two writes of other programs the rows stay where they are, with their
tokens and users; all that the process writes is expirations, and each of those
is the renewal of a call of `verifyToken` that found a row of the user.
-/

namespace LidarPublisher.System.Records

open LidarPublisher.Lib.Run
open LidarPublisher.Lib.History
open LidarPublisher.Sqlite.Execute
open LidarPublisher.Token.Clock
open LidarPublisher.Token.Query (noon)
open LidarPublisher.Token.VerifyToken
open LidarPublisher.Token.Acceptance
open LidarPublisher.Udp.ParseRequest
open LidarPublisher.System.Step
open LidarPublisher.System.Verification

variable (e : Engine)

/-- In the run `es` from `p` a call of `verifyToken` finds a row of a user with
the low 32 bits of `userId` and writes this expiration. -/
def RenewedIn (p : Process) (es : List Event) (userId : Int64)
    (expiration : List UInt8) : Prop :=
  ∃ pre ev post o token column0, es = pre ++ ev :: post ∧
    Process.call (runFrom (step e) p pre) ev = some (o, token) ∧
    Renews (e.returning o.rows) o.faults o.now token
      (runFrom (step e) p pre).db.table column0 ∧
    column0.toInt32.toInt = userId.toInt ∧
    expiration = strftime (renew o.later.toTm)

/-- What the run `es` from `p` may have made of a row. -/
structure Kept (p : Process) (es : List Event) (r r' : Row) : Prop where
  rowid : r'.rowid = r.rowid
  token : r'.token = r.token
  userId : r'.userId = r.userId
  expiration : r'.expiration = r.expiration ∨
    RenewedIn e p es r.userId r'.expiration

theorem RenewedIn.append {e : Engine} {p : Process} {es : List Event}
    {userId : Int64} {expiration : List UInt8}
    (h : RenewedIn e p es userId expiration) (fs : List Event) :
    RenewedIn e p (es ++ fs) userId expiration := by
  rcases h with ⟨pre, ev, post, o, token, column0, rfl, hrest⟩
  exact ⟨pre, ev, post ++ fs, o, token, column0, by simp, hrest⟩

theorem Kept.append {e : Engine} {p : Process} {es : List Event} {r r' : Row}
    (h : Kept e p es r r') (fs : List Event) : Kept e p (es ++ fs) r r' :=
  { h with expiration := h.expiration.imp_right fun hren => hren.append fs }

/-- A step renews the rows of one user, or none. -/
theorem table_step (p : Process) {ev : Event} (h : ∀ table, ev ≠ .write table) :
    (step e p ev).db.table = p.db.table ∨
      ∃ o token column0, Process.call p ev = some (o, token) ∧
        Renews (e.returning o.rows) o.faults o.now token p.db.table column0 ∧
        (step e p ev).db.table =
          setExpiration (strftime (renew o.later.toTm)) column0.toInt32.toInt
            p.db.table := by
  have hdb := (step_settle e p ev).2
  have hsettle : (step e p ev).db = (Process.settle e p (Process.call p ev)).2 := by
    rw [hdb]
    cases ev with
    | write table => exact absurd rfl (h table)
    | completion c o => rfl
    | start => rfl
    | rosShutdown => rfl
    | publisher ros => rfl
  rw [hsettle]
  cases hcall : Process.call p ev with
  | none => exact Or.inl rfl
  | some call =>
      rcases call with ⟨o, token⟩
      dsimp only [Process.settle, Occasion.verify]
      have hafter := tableAfter_verifyToken (e.returning o.rows) o.faults o.now
        o.later token p.db
      generalize (verifyToken (Calls.faulty (e.returning o.rows) o.faults) o.now
        o.later token p.db).2.table = table' at hafter ⊢
      cases hafter with
      | unchanged hnone => exact Or.inl rfl
      | renewed column0 hrenews =>
          exact Or.inr ⟨o, token, column0, rfl, hrenews, rfl⟩

/-- One more step that is no write of another program. -/
theorem kept_step {p : Process} {es : List Event} {ev : Event}
    (h : ∀ table, ev ≠ .write table)
    (hkept : List.Forall₂ (Kept e p es) p.db.table
      (runFrom (step e) p es).db.table) :
    List.Forall₂ (Kept e p (es ++ [ev])) p.db.table
      (step e (runFrom (step e) p es) ev).db.table := by
  have hkept' := hkept.imp fun _ _ hk => hk.append [ev]
  rcases table_step e (runFrom (step e) p es) h with
    hsame | ⟨o, token, column0, hcall, hrenews, htable⟩
  · rw [hsame]
    exact hkept'
  · rw [htable, setExpiration, List.forall₂_map_right_iff]
    refine hkept'.imp fun r r' hk => ?_
    split
    · next huser =>
        have hrenewed : RenewedIn e p (es ++ [ev]) r.userId
            (strftime (renew o.later.toTm)) := by
          refine ⟨es, ev, [], o, token, column0, rfl, hcall, hrenews, ?_, rfl⟩
          rw [← huser, hk.userId]
        exact ⟨hk.rowid, hk.token, hk.userId, Or.inr hrenewed⟩
    · exact hk

/-- **All the process writes are renewals.**  While no other program writes to
the table, the process adds, removes and reorders no row and changes no token
and no user; an expiration is the one it was, or one written for a user of the
same low 32 bits by a call in between. -/
theorem table_kept (garbage : Buf) (table : Table) (pre post : List Event)
    (h : ∀ table', Event.write table' ∉ post) :
    List.Forall₂ (Kept e (Process.after e garbage table pre) post)
      (Process.after e garbage table pre).db.table
      (Process.after e garbage table (pre ++ post)).db.table := by
  rw [after_append]
  generalize Process.after e garbage table pre = p
  refine inv_history
    (fun es q => (∀ table', Event.write table' ∉ es) →
      List.Forall₂ (Kept e p es) p.db.table q.db.table) p ?_ ?_ post h
  · intro _
    exact List.forall₂_same.mpr fun r _ => ⟨rfl, rfl, rfl, Or.inl rfl⟩
  · intro es ev ih hnone
    refine kept_step e (fun table' heq => ?_) (ih fun table' hmem => ?_)
    · exact hnone table' (by simp [heq])
    · exact hnone table' (by simp [hmem])

/-- The row of the accepted token keeps its number, token and user. -/
theorem table_kept_noon :
    List.Forall₂
      (Kept Engine.plain (Process.init (Vector.replicate readBufSize 0)
        sixteenAsTable) [send .start fieldOfAs (.at noon), tick])
      sixteenAsTable
      (Process.after Engine.plain (Vector.replicate readBufSize 0) sixteenAsTable
        [send .start fieldOfAs (.at noon), tick]).db.table :=
  table_kept Engine.plain (Vector.replicate readBufSize 0) sixteenAsTable []
    [send .start fieldOfAs (.at noon), tick] (by simp [send, tick])

end LidarPublisher.System.Records

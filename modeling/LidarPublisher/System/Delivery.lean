import LidarPublisher.Lib.Accounting
import LidarPublisher.System.Step

/-!
# A start request is answered with scans

What it takes for the two threads together to publish: the process is started
and ROS is up, the receiver has not met an error, and a well-formed request
brings an accepted token or finds one in the cache.  From then on the steps of
the publisher thread are counted: none is lost while no stop request is heard.
-/

namespace LidarPublisher.System.Delivery

open LidarPublisher.Lib.Run
open LidarPublisher.Lib.Accounting
open LidarPublisher.Sqlite.Lexer
open LidarPublisher.Sqlite.Execute
open LidarPublisher.Token.Query
open LidarPublisher.Token.VerifyToken
open LidarPublisher.Token.Acceptance
open LidarPublisher.Udp
open LidarPublisher.Udp.ParseRequest
open LidarPublisher.Udp.HandleReceive
open LidarPublisher.Udp.Isolation (merged_full)
open LidarPublisher.Udp.RequestGrammar (TokenField parse21_eq_code_iff
  firstTerminator_request command_eq_code_iff scan21_request
  extractToken_request)
open LidarPublisher.Udp.SessionExpiry (Session)
open LidarPublisher.Polling.StartPolling (Pc Publisher RosAnswer
  polling_complete)
open LidarPublisher.System.Step

/-! ## The publisher thread, step by step -/

/-- How far the thread is in its loops, in half iterations. -/
def rank : Pc → Nat
  | .waiting => 0
  | .outer => 1
  | .inner => 2
  | .body => 3
  | .undefined => 0

/-- The half iterations done. -/
def halves (p : Publisher) : Nat := 2 * p.published.length + rank p.pc

/-- The thread keeps both flags while ROS is up. -/
theorem flags_step {p : Publisher} (hros : p.rosOk = true) (polling : Bool)
    (ros : RosAnswer) :
    (p.step polling ros).rosOk = true ∧
      (p.step polling ros).initialized = p.initialized := by
  unfold Publisher.step
  cases p.pc with
  | waiting =>
      dsimp only
      split
      · exact ⟨hros, rfl⟩
      · exact ⟨hros, rfl⟩
  | outer =>
      dsimp only
      split
      · exact ⟨hros, rfl⟩
      · exact ⟨hros, rfl⟩
  | inner =>
      dsimp only
      rw [if_pos hros]
      exact ⟨hros, rfl⟩
  | body =>
      dsimp only
      split
      · exact ⟨hros, rfl⟩
      · exact ⟨hros, rfl⟩
  | undefined => exact ⟨hros, rfl⟩

/-- Nothing stands between the thread and its innermost loop, but for the
flag `polling`. -/
structure Started (p : Publisher) : Prop where
  inv : p.Inv
  rosOk : p.rosOk = true
  initialized : p.initialized = true

theorem Started.step {p : Publisher} (h : Started p) (polling : Bool)
    (ros : RosAnswer) : Started (p.step polling ros) := by
  rcases flags_step h.rosOk polling ros with ⟨hros, hinit⟩
  exact ⟨h.inv.step polling ros, hros, hinit.trans h.initialized⟩

/-- With polling on every step of the thread counts. -/
theorem Started.halves_step {p : Publisher} (h : Started p) (ros : RosAnswer) :
    halves (p.step true ros) = halves p + 1 := by
  unfold Publisher.step
  cases hpc : p.pc with
  | waiting => simp [halves, hpc, rank, h.initialized]
  | outer => simp [halves, hpc, rank]
  | inner => simp [halves, hpc, rank, h.rosOk]
  | body =>
      rcases h.inv.buildScan ros with ⟨scan, hscan⟩
      dsimp only
      rw [hscan]
      simp only [halves, hpc, rank, List.length_append, List.length_singleton]
      omega
  | undefined => exact absurd hpc h.inv.defined

/-! ## The request -/

variable (e : Engine)

/-- The token of a request passes: a session is open, or no SQLite call fails
and the token, read as a literal, is that of an unexpired row. -/
def Passes (p : Process) (t : TokenField) (o : Occasion) : Prop :=
  p.node.server.token ≠ [] ∨
    (o.faults = .none ∧ dquote ∉ t.bytes ∧ lookupColumn t.bytes = none ∧
      Accepts t.bytes o.now p.db.table)

/-- The bytes of a token field as an argument of `verifyToken`. -/
def tokenOf (t : TokenField) : CToken :=
  { bytes := t.bytes, noNul := t.noNul, short := t.length_eq.le }

theorem accepted_of_passes {p : Process} {t : TokenField} {o : Occasion}
    (h : Passes p t o) (hclosed : p.node.server.token = []) :
    (o.verify e t.bytes p.db).1 ≠ -1 := by
  rcases h with hopen | ⟨hfaults, hq, hcol, hrow⟩
  · exact absurd hclosed hopen
  · have hcode := verifyToken_real_code (show dquote ∉ (tokenOf t).bytes from hq)
      (e.returning o.rows) o.now o.later p.db
    have hname : lookupName t.bytes = .literal t.bytes := by
      rw [lookupName, hcol]
    rw [show (tokenOf t).bytes = t.bytes from rfl, hname, if_neg] at hcode
    · unfold Occasion.verify
      rw [hfaults]
      change (verifyToken (Calls.real (e.returning o.rows)) o.now o.later t.bytes
        p.db).1 ≠ -1
      rw [hcode]
      decide
    · exact fun hnil => (matching_literal_eq_nil_iff _ o.now _ _).mp hnil hrow

/-- A start request whose token passes switches polling on. -/
theorem polling_of_send {p : Process} (harmed : p.node.socket.outstanding ≠ 0)
    {t : TokenField} {o : Occasion} (h : Passes p t o) :
    (step e p (send .start t o)).node.server.polling = true ∧
      (step e p (send .start t o)).publisher = p.publisher := by
  unfold step send
  dsimp only
  rw [if_neg harmed]
  refine ⟨?_, rfl⟩
  rcases handle_of_heard e p o (c :=
    { datagram := .full (RequestGrammar.request .start t), error := .success })
    (by simp) with ⟨-, hserver, -⟩
  rw [hserver]
  have hbuf : (p.request
      { datagram := .full (RequestGrammar.request .start t), error := .success }
      o).buf = RequestGrammar.request .start t := merged_full _ _
  have hzero : ((Session.mk p.node.server p.db).parse e (p.request
      { datagram := .full (RequestGrammar.request .start t), error := .success }
      o)).1 = 0 := by
    refine (parse21_eq_code_iff (o.verify e) _ _ _ .start).mpr ⟨?_, ?_, ?_⟩
    · rw [hbuf, firstTerminator_request]
      rfl
    · intro hclosed
      have hpresented : presented21 (p.request
          { datagram := .full (RequestGrammar.request .start t)
            error := .success } o).buf p.node.server = t.bytes := by
        rw [hbuf]
        show extractToken (scan21 _ _).readBuf = t.bytes
        rw [(scan21_request .start t p.node.server.readBuf).2,
          extractToken_request]
      show (o.verify e (presented21 _ p.node.server) p.db).1 ≠ -1
      rw [hpresented]
      exact accepted_of_passes e h hclosed
    · rw [hbuf]
      exact (command_eq_code_iff .start _).mpr ⟨rfl, rfl⟩
  rw [hzero]
  rfl

/-! ## Runs -/

/-- The event is a step of the publisher thread. -/
def isThread : Event → Bool
  | .publisher _ => true
  | _ => false

/-- The event neither shuts ROS down nor is a stop request that is honoured. -/
def GoesOn (p : Process) (ev : Event) : Prop :=
  ev ≠ .rosShutdown ∧ ∀ c o, ev = .completion c o →
    p.node.socket.outstanding ≠ 0 → (p.handle e c o).1 ≠ some 1

/-- The thread has started and polling is on. -/
structure Running (p : Process) : Prop where
  started : Started p.publisher
  polling : p.node.server.polling = true

/-- The process stays running, and every step of the thread counts. -/
theorem Running.step {p : Process} (h : Running p) {ev : Event}
    (hev : GoesOn e p ev) :
    Running (step e p ev) ∧
      halves (step e p ev).publisher =
        halves p.publisher + if isThread ev then 1 else 0 := by
  cases ev with
  | completion c o =>
      unfold Step.step
      dsimp only
      by_cases hdeaf : p.node.socket.outstanding = 0
      · rw [if_pos hdeaf]
        exact ⟨h, rfl⟩
      · rw [if_neg hdeaf]
        refine ⟨⟨h.started, ?_⟩, rfl⟩
        have hstop := hev.2 c o rfl hdeaf
        change (complete (o.verify e) c p.node p.db).1 ≠ some 1 at hstop
        show (complete (o.verify e) c p.node p.db).2.1.server.polling = true
        rw [polling_complete, h.polling]
        cases hres : (complete (o.verify e) c p.node p.db).1 with
        | none => rfl
        | some res =>
            have hne : res ≠ 1 := fun h1 => hstop (h1 ▸ hres)
            simp [pollingAfter, hne]
  | write table => exact ⟨⟨h.started, h.polling⟩, rfl⟩
  | start =>
      have hinv := h.started.inv
      exact ⟨⟨⟨⟨hinv.position, hinv.defined⟩, h.started.rosOk, rfl⟩, h.polling⟩,
        rfl⟩
  | rosShutdown => exact absurd rfl hev.1
  | publisher ros =>
      refine ⟨⟨h.started.step _ ros, h.polling⟩, ?_⟩
      show halves (p.publisher.step p.node.server.polling ros) = _
      rw [h.polling]
      exact h.started.halves_step ros

/-- What a run without errors and without the end of ROS keeps. -/
structure Healthy (p : Process) : Prop where
  armed : p.node.socket.outstanding = 1
  inv : p.publisher.Inv
  rosOk : p.publisher.rosOk = true

/-- The event is no error of the socket and not the end of ROS. -/
def Harmless (ev : Event) : Prop :=
  ev ≠ .rosShutdown ∧ ∀ c o, ev = .completion c o → c.error ≠ .other

theorem Healthy.step {p : Process} (h : Healthy p) {ev : Event}
    (hev : Harmless ev) :
    Healthy (step e p ev) ∧
      (p.publisher.initialized = true →
        (step e p ev).publisher.initialized = true) := by
  cases ev with
  | completion c o =>
      have hnode := (receiver e).state_step p (.completion c o)
      change (Step.step e p (.completion c o)).node =
        Receiver.afterArrival (oracle e) p.node (c, (p.db, o)) at hnode
      have hpublisher : (Step.step e p (.completion c o)).publisher =
          p.publisher := by
        unfold Step.step
        dsimp only
        split
        · rfl
        · rfl
      refine ⟨⟨?_, hpublisher ▸ h.inv, hpublisher ▸ h.rosOk⟩, ?_⟩
      · rw [hnode, Receiver.outstanding_afterArrival _ h.armed,
          if_neg (hev.2 c o rfl)]
      · rw [hpublisher]
        exact id
  | write table => exact ⟨⟨h.armed, h.inv, h.rosOk⟩, id⟩
  | start => exact ⟨⟨h.armed, ⟨h.inv.position, h.inv.defined⟩, h.rosOk⟩, fun _ => rfl⟩
  | rosShutdown => exact absurd rfl hev.1
  | publisher ros =>
      rcases flags_step h.rosOk p.node.server.polling ros with ⟨hros, hinit⟩
      exact ⟨⟨h.armed, h.inv.step _ ros, hros⟩, hinit.trans⟩

/-- A new process is healthy as long as nothing harmful happens, and once it was
started it stays so. -/
theorem healthy_after (garbage : Buf) (table : Table) {es : List Event}
    (h : ∀ ev ∈ es, Harmless ev) :
    Healthy (Process.after e garbage table es) ∧
      (.start ∈ es →
        (Process.after e garbage table es).publisher.initialized = true) := by
  have hrun : ∀ {p : Process} (fs : List Event), Healthy p →
      (∀ ev ∈ fs, Harmless ev) → Healthy (runFrom (step e) p fs) ∧
        (p.publisher.initialized = true →
          (runFrom (step e) p fs).publisher.initialized = true) := by
    intro p fs hp hfs
    exact inv_runFrom_of_everyStep
      (fun q => Healthy q ∧ (p.publisher.initialized = true →
        q.publisher.initialized = true))
      (fun _ _ hq hev => ⟨(hq.1.step e hev).1,
        fun hinit => (hq.1.step e hev).2 (hq.2 hinit)⟩)
      p fs ⟨hp, id⟩ (everyStep_of_forall_mem p hfs)
  have hinit : Healthy (Process.init garbage table) :=
    ⟨rfl, ⟨by simp [Process.init, Publisher.init], by simp [Process.init,
      Publisher.init]⟩, rfl⟩
  refine ⟨(hrun es hinit h).1, fun hstart => ?_⟩
  rcases List.append_of_mem hstart with ⟨pre, post, rfl⟩
  have hpre := (hrun pre hinit fun ev hev => h ev (by simp [hev])).1
  show (runFrom (step e) (Process.init garbage table)
    (pre ++ .start :: post)).publisher.initialized = true
  rw [runFrom_append, runFrom_cons]
  exact (hrun post (hpre.step e (h .start (by simp))).1
    fun ev hev => h ev (by simp [hev])).2 rfl

/-- The thread is in one of its loops, so less than one scan is under way. -/
theorem rank_le (pc : Pc) : rank pc ≤ 3 := by
  cases pc <;> decide

/-- **A start request is answered with scans.**  In a process that was started
and met no error, after a well-formed start request whose token passes, `2n + 2`
steps of the publisher thread publish `n` scans at least, whatever other
datagrams arrive and whatever is written to the table in between, as long as no
stop request is honoured and ROS does not end. -/
theorem published_of_start (garbage : Buf) (table : Table)
    (pre post : List Event) (t : TokenField) (o : Occasion) (n : Nat)
    (hstart : Event.start ∈ pre) (hpre : ∀ ev ∈ pre, Harmless ev)
    (hpasses : Passes (Process.after e garbage table pre) t o)
    (hpost : EveryStep (step e) (GoesOn e)
      (Process.after e garbage table (pre ++ [send .start t o])) post)
    (hn : 2 * n + 2 ≤ post.countP isThread) :
    (Process.after e garbage table pre).publisher.published.length + n ≤
      (Process.after e garbage table
        (pre ++ [send .start t o] ++ post)).publisher.published.length := by
  rcases healthy_after e garbage table hpre with ⟨hhealthy, hinit⟩
  have harmed : (Process.after e garbage table pre).node.socket.outstanding ≠ 0 := by
    rw [hhealthy.armed]
    decide
  rcases polling_of_send e harmed hpasses with ⟨hpolling, hsame⟩
  have hsend : Process.after e garbage table (pre ++ [send .start t o]) =
      step e (Process.after e garbage table pre) (send .start t o) :=
    after_append e garbage table pre [send .start t o]
  have hrunning : Running
      (step e (Process.after e garbage table pre) (send .start t o)) :=
    ⟨hsame ▸ ⟨hhealthy.inv, hhealthy.rosOk, hinit hstart⟩, hpolling⟩
  rw [after_append _ _ _ (pre ++ [send .start t o]) post]
  rw [hsend] at hpost ⊢
  rw [← hsame]
  generalize step e (Process.after e garbage table pre) (send .start t o) = q
    at hpost hrunning ⊢
  have hcount : halves (runFrom (step e) q post).publisher =
      halves q.publisher + post.countP isThread := by
    rw [← total_eq_countP isThread q]
    exact growth Running (fun _ _ hp hev => (hp.step e hev).1)
      (fun p : Process => halves p.publisher) _
      (fun _ _ hp hev => (hp.step e hev).2) hrunning hpost
  have hrank := rank_le (runFrom (step e) q post).publisher.pc
  unfold halves at hcount
  omega

/-- The first scan, although the token is deleted right after the request. -/
theorem published_of_start_noon :
    0 + 1 ≤ (Process.after Engine.plain (Vector.replicate readBufSize 0)
      sixteenAsTable
      ([.start] ++ [send .start fieldOfAs (.at noon)] ++
        [.write [], tick, tick, tick, tick])).publisher.published.length :=
  published_of_start Engine.plain (Vector.replicate readBufSize 0) sixteenAsTable
    [.start] [.write [], tick, tick, tick, tick] fieldOfAs (.at noon) 1
    (by simp) (by simp [Harmless])
    (Or.inr ⟨rfl, by decide, by decide, by decide +kernel⟩)
    (by simp [GoesOn, tick]) (by decide)

end LidarPublisher.System.Delivery

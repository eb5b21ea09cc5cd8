import LidarPublisher.Polling.Thread

/-!
# How fast the node publishes, and how it stops

An iteration of the innermost loop is two steps of the thread: the test of
`ros::ok()` and the body.  Inside the loop nothing but the end of ROS changes
that, so the number of scans is a matter of arithmetic; and the end of ROS is
final.
-/

namespace LidarPublisher.Polling.Throughput

open LidarPublisher.Lib.Run
open LidarPublisher.Lib.Simulation
open LidarPublisher.Scan.Message
open LidarPublisher.Udp
open LidarPublisher.Polling.StartPolling
open LidarPublisher.Polling.Thread

/-- Half iterations of the innermost loop. -/
def progress (p : Publisher) : Nat :=
  2 * p.published.length + if p.pc = .body then 1 else 0

/-! ## One step -/

theorem inv_advance {p : Publisher} (h : p.Inv) (e : Input) :
    (advance p e).Inv := by
  cases e with
  | start => exact { position := h.position, defined := h.defined }
  | rosShutdown => exact { position := h.position, defined := h.defined }
  | step polling ros => exact h.step polling ros

/-- Inside the loop each step of the thread is half an iteration. -/
theorem progress_step {p : Publisher} (h : p.Inv) (hin : p.Inside)
    (polling : Bool) (ros : RosAnswer) :
    (p.step polling ros).Inside ∧ (p.step polling ros).frameId = p.frameId ∧
      progress (p.step polling ros) = progress p + 1 := by
  rcases hin with ⟨hpc | hpc, hros⟩
  · have hstep : p.step polling ros = { p with pc := .body } := by
      unfold Publisher.step
      rw [hpc]
      exact if_pos hros
    rw [hstep]
    exact ⟨⟨Or.inr rfl, hros⟩, rfl, by simp [progress, hpc]⟩
  · rcases h.buildScan ros with ⟨scan, hscan⟩
    unfold Publisher.step
    rw [hpc]
    dsimp only
    rw [hscan]
    refine ⟨⟨Or.inl rfl, hros⟩, rfl, ?_⟩
    simp only [progress, hpc, List.length_append, List.length_singleton, if_true]
    simp
    omega

/-- Only the end of ROS leads out of the loop, and each clock reading is half an
iteration. -/
theorem progress_runFrom {p : Publisher} (h : p.Inv) (hin : p.Inside)
    {es : List Input} (hros : Input.rosShutdown ∉ es) :
    (runFrom advance p es).Inside ∧ (runFrom advance p es).frameId = p.frameId ∧
      progress (runFrom advance p es) = progress p + (clock es).length := by
  induction es generalizing p with
  | nil => exact ⟨hin, rfl, rfl⟩
  | cons e es ih =>
      rcases not_or.mp (List.mem_cons.not.mp hros) with ⟨he, hrest⟩
      cases e with
      | start => exact ih (inv_advance h .start) hin hrest
      | rosShutdown => exact absurd rfl he
      | step polling ros =>
          rcases progress_step h hin polling ros with ⟨hin', hframe, hprogress⟩
          rcases ih (inv_advance h (.step polling ros)) hin' hrest with
            ⟨hinside, hname, hcount⟩
          refine ⟨hinside, hname.trans hframe, hcount.trans ?_⟩
          show progress (p.step polling ros) + _ =
            progress p + ((clock es).length + 1)
          omega

/-- After the end of ROS no iteration begins. -/
theorem committed_advance {p : Publisher} (h : p.Inv) (hros : p.rosOk = false)
    (e : Input) :
    (advance p e).rosOk = false ∧ (advance p e).committed = p.committed ∧
      p.published <+: (advance p e).published := by
  cases e with
  | start => exact ⟨hros, rfl, List.prefix_rfl⟩
  | rosShutdown => exact ⟨rfl, rfl, List.prefix_rfl⟩
  | step polling ros =>
      show (p.step polling ros).rosOk = false ∧
        (p.step polling ros).committed = p.committed ∧
          p.published <+: (p.step polling ros).published
      unfold Publisher.step
      cases hpc : p.pc with
      | waiting =>
          dsimp only
          split
          · exact ⟨hros, by simp [Publisher.committed, hpc], List.prefix_rfl⟩
          · exact ⟨hros, rfl, List.prefix_rfl⟩
      | outer =>
          dsimp only
          split
          · exact ⟨hros, by simp [Publisher.committed, hpc], List.prefix_rfl⟩
          · exact ⟨hros, rfl, List.prefix_rfl⟩
      | inner =>
          dsimp only
          rw [if_neg (by simp [hros])]
          exact ⟨hros, by simp [Publisher.committed, hpc], List.prefix_rfl⟩
      | body =>
          rcases h.buildScan ros with ⟨scan, hscan⟩
          rw [hscan]
          exact ⟨hros, by simp [Publisher.committed, hpc],
            List.prefix_append _ _⟩
      | undefined => exact absurd hpc h.defined

/-! ## Runs -/

variable {ω : Type} (verifyToken : List UInt8 → ω → Int × ω)

/-- The event is a step of the publisher thread. -/
def isPublisher : Event ω → Bool
  | .publisher _ => true
  | _ => false

theorem publisher_inv_runFrom (garbage : ParseRequest.Buf)
    (es : List (Event ω)) :
    (runFrom (StartPolling.step verifyToken) (System.init garbage)
      es).publisher.Inv :=
  inv_runFrom (fun s : System => s.publisher.Inv)
    (fun _ e => publisher_inv_step verifyToken e) _ es
    (System.inv_init garbage).publisher

/-- The end of ROS is seen by the thread only when it happens. -/
theorem rosShutdown_notMem_trace {es : List (Event ω)}
    (h : Event.rosShutdown ∉ es) (s : System) :
    Input.rosShutdown ∉ (thread verifyToken).trace s es := by
  intro hmem
  rcases View.exists_of_mem_trace _ hmem with ⟨t, e, he, hevent⟩
  cases e with
  | rosShutdown => exact h he
  | completion c w => exact absurd hevent List.not_mem_nil
  | start => exact absurd (List.mem_singleton.mp hevent) (by simp)
  | publisher ros => exact absurd (List.mem_singleton.mp hevent) (by simp)

/-- Each step of the thread reads the clock. -/
theorem length_rosClock (es : List (Event ω)) :
    (rosClock es).length = es.countP isPublisher := by
  rw [rosClock, List.length_filterMap_eq_countP]
  congr 1
  funext e
  cases e <;> rfl

/-- **Throughput.**  Once the thread is in its innermost loop it stays there, and
every two of its steps publish a scan, whatever requests are processed in
between, until ROS ends. -/
theorem throughput (garbage : ParseRequest.Buf) (pre post : List (Event ω))
    (hin : (runFrom (StartPolling.step verifyToken) (System.init garbage)
      pre).publisher.Inside)
    (hros : Event.rosShutdown ∉ post) :
    let p := (runFrom (StartPolling.step verifyToken) (System.init garbage)
      pre).publisher
    let q := (runFrom (StartPolling.step verifyToken) (System.init garbage)
      (pre ++ post)).publisher
    q.Inside ∧ progress q = progress p + post.countP isPublisher := by
  intro p q
  have hinv : p.Inv := publisher_inv_runFrom verifyToken garbage pre
  have hq : q = runFrom advance p ((thread verifyToken).trace
      (runFrom (StartPolling.step verifyToken) (System.init garbage) pre)
      post) := by
    show (runFrom (StartPolling.step verifyToken) (System.init garbage)
      (pre ++ post)).publisher = _
    rw [runFrom_append]
    exact (thread verifyToken).state_runFrom _ post
  rcases progress_runFrom hinv hin (rosShutdown_notMem_trace verifyToken hros
    (runFrom (StartPolling.step verifyToken) (System.init garbage) pre)) with
    ⟨hinside, -, hprogress⟩
  rw [clock_trace, length_rosClock] at hprogress
  rw [hq]
  exact ⟨hinside, hprogress⟩

/-- A stop request between two steps of the thread does not slow it down. -/
theorem throughput_stop :
    progress (runFrom (StartPolling.step acceptAll)
        (System.init (Vector.replicate ParseRequest.readBufSize 0))
        ([.start, .publisher { now := 0, frameId := none },
            request 'S'.toNat.toUInt8, .publisher { now := 1, frameId := none }] ++
          [.publisher { now := 2, frameId := none }, request 's'.toNat.toUInt8,
            .publisher { now := 3, frameId := none }])).publisher =
      progress (runFrom (StartPolling.step acceptAll)
        (System.init (Vector.replicate ParseRequest.readBufSize 0))
        [.start, .publisher { now := 0, frameId := none },
          request 'S'.toNat.toUInt8,
          .publisher { now := 1, frameId := none }]).publisher + 2 :=
  (throughput acceptAll (Vector.replicate ParseRequest.readBufSize 0)
    [.start, .publisher { now := 0, frameId := none },
      request 'S'.toNat.toUInt8, .publisher { now := 1, frameId := none }]
    [.publisher { now := 2, frameId := none }, request 's'.toNat.toUInt8,
      .publisher { now := 3, frameId := none }]
    ⟨by decide +kernel, by decide +kernel⟩ (by simp [request])).2

/-! ## The end of ROS -/

/-- `lidarserver::stopPolling`. -/
def stopPolling (s : System) : System :=
  { node := { s.node with server := { s.node.server with polling := false } }
    publisher := { s.publisher with rosOk := false } }

/-- Without ROS at most the iteration under way publishes. -/
theorem published_of_shutdown {p : Publisher} (h : p.Inv)
    (hros : p.rosOk = false) (es : List Input) :
    (runFrom advance p es).published = p.published ∨
      p.pc = .body ∧ ∃ m, (runFrom advance p es).published = p.published ++ [m] := by
  have hrun : (runFrom advance p es).Inv ∧
      (runFrom advance p es).rosOk = false ∧
      (runFrom advance p es).committed = p.committed ∧
      p.published <+: (runFrom advance p es).published := by
    apply inv_runFrom (fun q : Publisher => q.Inv ∧ q.rosOk = false ∧
      q.committed = p.committed ∧ p.published <+: q.published)
    · intro q e hq
      rcases hq with ⟨hinv, hoff, hsame, hpre⟩
      rcases committed_advance hinv hoff e with ⟨hoff', hsame', hpre'⟩
      exact ⟨inv_advance hinv e, hoff', hsame'.trans hsame, hpre.trans hpre'⟩
    · exact ⟨h, hros, rfl, List.prefix_rfl⟩
  rcases hrun with ⟨-, -, hsame, more, hmore⟩
  rw [← hmore]
  unfold Publisher.committed at hsame
  rw [← hmore, List.length_append] at hsame
  match more with
  | [] => exact Or.inl (List.append_nil _)
  | [m] =>
      right
      refine ⟨?_, m, rfl⟩
      by_contra hpc
      rw [if_neg hpc, List.length_singleton] at hsame
      omega
  | m :: m' :: more =>
      rw [List.length_cons, List.length_cons] at hsame
      split at hsame <;> split at hsame <;> omega

/-- At most the iteration under way in `s` publishes on the way to `t`. -/
def Silent (s t : System) : Prop :=
  t.publisher.published = s.publisher.published ∨
    s.publisher.pc = .body ∧
      ∃ m, t.publisher.published = s.publisher.published ++ [m]

theorem silent_runFrom {s t : System} (h : s.publisher.Inv)
    (ht : t.publisher = { s.publisher with rosOk := false })
    (es : List (Event ω)) :
    Silent s (runFrom (StartPolling.step verifyToken) t es) := by
  have hview : (runFrom (StartPolling.step verifyToken) t es).publisher =
      runFrom advance t.publisher ((thread verifyToken).trace t es) :=
    (thread verifyToken).state_runFrom t es
  unfold Silent
  rw [hview, ht]
  exact published_of_shutdown (p := { s.publisher with rosOk := false })
    { position := h.position, defined := h.defined } rfl _

/-- **The end of ROS is final.**  After `stopPolling`, or when ROS shuts down, at
most the iteration under way still publishes, whatever happens then: neither
`start` nor a start request brings the thread back. -/
theorem shutdown_final (garbage : ParseRequest.Buf) (pre post : List (Event ω)) :
    let run := runFrom (StartPolling.step verifyToken)
    let s := run (System.init garbage) pre
    Silent s (run (stopPolling s) post) ∧
      Silent s (run (System.init garbage) (pre ++ .rosShutdown :: post)) := by
  intro run s
  have hinv : s.publisher.Inv := publisher_inv_runFrom verifyToken garbage pre
  constructor
  · exact silent_runFrom verifyToken hinv rfl post
  · show Silent s (runFrom _ _ (pre ++ .rosShutdown :: post))
    rw [runFrom_append]
    exact silent_runFrom verifyToken hinv rfl post

end LidarPublisher.Polling.Throughput

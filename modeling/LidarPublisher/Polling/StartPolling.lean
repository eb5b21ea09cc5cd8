import LidarPublisher.Lib.Run
import LidarPublisher.Scan.Message
import LidarPublisher.Udp.HandleReceive

/-!
# The publisher thread against the request handler

`lidarserver::startPolling` runs in its own thread.  Its outer loop waits for
`polling`, its inner loop publishes as long as `ros::ok()`.  The request handler
sets `polling` from another thread; a system run interleaves completions of
`handle_receive` with the steps of the publisher in any order.
-/

namespace LidarPublisher.Polling.StartPolling

open LidarPublisher.Lib.Binary
open LidarPublisher.Lib.Run
open LidarPublisher.Scan.Message
open LidarPublisher.Udp.ParseRequest
open LidarPublisher.Udp.HandleReceive

/-- Where the publisher thread stands in `startPolling`. -/
inductive Pc
  /-- `while(!initialized)` -/
  | waiting
  /-- about to test `while(this->polling)` -/
  | outer
  /-- about to test `while(ros::ok())` -/
  | inner
  /-- in the body of the innermost loop -/
  | body
  /-- after a store outside an array -/
  | undefined
  deriving DecidableEq, Repr

/-- The thread's locals and the messages it has published; `rpms` goes out with
every scan. -/
structure Publisher where
  pc : Pc
  initialized : Bool
  rosOk : Bool
  frameId : String
  scanPosition : Int
  distance : Int
  published : List (LaserScan × Nat)
  deriving DecidableEq, Repr

def Publisher.init : Publisher :=
  { pc := .waiting, initialized := false, rosOk := true, frameId := ""
    scanPosition := 0, distance := 2, published := [] }

/-- What the ROS calls of one step return: the clock and the `frame_id`
parameter, when the user set one. -/
structure RosAnswer where
  now : Nat
  frameId : Option String

/-- The scan built in the innermost loop: the distance becomes a `float`. -/
def Publisher.buildScan (p : Publisher) (ros : RosAnswer) : Option LaserScan := do
  let scan :=
    { LaserScan.new with frameId := p.frameId, stamp := ros.now }
  let reading := binary32.round p.distance
  let scan ← scan.prepare.store p.scanPosition reading reading
  return { scan with timeIncrement := 1080 }

/-- One step of the publisher thread, which reads `polling` in its outer
loop only. -/
def Publisher.step (p : Publisher) (polling : Bool) (ros : RosAnswer) :
    Publisher :=
  match p.pc with
  | .waiting =>
      if p.initialized then
        { p with pc := .outer, frameId := ros.frameId.getD "lidar_scanner" }
      else p
  | .outer =>
      if polling then { p with pc := .inner, scanPosition := 0, distance := 2 }
      else p
  | .inner =>
      if p.rosOk then { p with pc := .body }
      else { p with pc := .outer, initialized := false }
  | .body =>
      match p.buildScan ros with
      | none => { p with pc := .undefined }
      | some scan =>
          let next := p.scanPosition + 1
          { p with
            pc := .inner
            scanPosition := if next ≥ 360 then next - 360 else next
            published := p.published ++ [(scan, 180)] }
  | .undefined => p

/-- Both threads and the members they share. -/
structure System where
  node : Node
  publisher : Publisher
  deriving DecidableEq, Repr

def System.init (garbage : Buf) : System :=
  { node := Node.init garbage, publisher := Publisher.init }

/-- The events of a system run: a receive operation completes, `start()` sets
`initialized`, ROS shuts down, or the publisher thread takes a step. -/
inductive Event (ω : Type)
  | completion (c : Completion) (w : ω)
  | start
  | rosShutdown
  | publisher (ros : RosAnswer)

variable {ω : Type} (verifyToken : List UInt8 → ω → Int × ω)

/-- One event of the system. -/
def step (s : System) : Event ω → System
  | .completion c w => { s with node := (complete verifyToken c s.node w).2.1 }
  | .start =>
      { s with publisher := { s.publisher with initialized := true } }
  | .rosShutdown => { s with publisher := { s.publisher with rosOk := false } }
  | .publisher ros =>
      { s with publisher := s.publisher.step s.node.server.polling ros }

@[simp] theorem step_publisher (s : System) (ros : RosAnswer) :
    step verifyToken s (.publisher ros) =
      { s with publisher := s.publisher.step s.node.server.polling ros } := rfl

/-- The event is a request that `parseRequest` answers with `res`. -/
def Answers (res : Int) (s : System) : Event ω → Prop
  | .completion c w => (complete verifyToken c s.node w).1 = some res
  | _ => False

/-- The event starts an iteration of the innermost loop, which will publish. -/
def BeginsIteration (s : System) : Event ω → Prop
  | .publisher _ => s.publisher.pc = .inner ∧ s.publisher.rosOk = true
  | _ => False

/-- An iteration that publishes begins with polling on. -/
def BeginsPolling (s : System) (e : Event ω) : Prop :=
  BeginsIteration s e → s.node.server.polling = true

/-- After a stop request, and up to the next start request, at most the
iteration under way publishes. -/
def SilentAfterStop (s : System) (es : List (Event ω)) : Prop :=
  ∀ pre stop post, es = pre ++ stop :: post →
    Answers verifyToken 1 (runFrom (step verifyToken) s pre) stop →
    EveryStep (step verifyToken) (fun t e => ¬Answers verifyToken 0 t e)
      (runFrom (step verifyToken) s (pre ++ [stop])) post →
    (runFrom (step verifyToken) s es).publisher.published.length ≤
      (runFrom (step verifyToken) s pre).publisher.published.length + 1

/-- Stop requests are honoured along the run. -/
def StopHonoured (s : System) (es : List (Event ω)) : Prop :=
  EveryStep (step verifyToken) BeginsPolling s es ∧
    SilentAfterStop verifyToken s es

/-- The publisher thread is in its innermost loop and will stay there. -/
def Publisher.Inside (p : Publisher) : Prop :=
  (p.pc = .inner ∨ p.pc = .body) ∧ p.rosOk = true

/-- The event is not a stop request processed while the publisher is in its
innermost loop. -/
def NoStopInside (s : System) (e : Event ω) : Prop :=
  Answers verifyToken 1 s e → ¬s.publisher.Inside

/-! ## The publisher never leaves the scan's arrays -/

/-- The loop index stays on the circle, so every store is in bounds. -/
structure Publisher.Inv (p : Publisher) : Prop where
  position : 0 ≤ p.scanPosition ∧ p.scanPosition < 360
  defined : p.pc ≠ .undefined

/-- In bounds the scan is built. -/
theorem Publisher.Inv.buildScan {p : Publisher} (h : p.Inv) (ros : RosAnswer) :
    ∃ scan, p.buildScan ros = some scan := by
  have hlen : ∀ xs : List Value,
      0 ≤ p.scanPosition ∧ p.scanPosition < (resize 360 xs).length := by
    intro xs
    simpa using h.position
  unfold Publisher.buildScan LaserScan.store
  simp only [LaserScan.prepare, storeAt_eq_some _ (hlen _)]
  exact ⟨_, rfl⟩

theorem Publisher.Inv.step {p : Publisher} (h : p.Inv) (polling : Bool)
    (ros : RosAnswer) : (p.step polling ros).Inv := by
  rcases h.position with ⟨hlow, hhigh⟩
  unfold Publisher.step
  split
  · split
    · exact { position := h.position, defined := by simp }
    · exact h
  · split
    · exact { position := by simp, defined := by simp }
    · exact h
  · split
    · exact { position := h.position, defined := by simp }
    · exact { position := h.position, defined := by simp }
  · rcases h.buildScan ros with ⟨scan, hscan⟩
    rw [hscan]
    refine { position := ?_, defined := by simp }
    dsimp only
    split <;> omega
  · next hpc => exact absurd hpc h.defined

/-! ## What one event does to the shared state -/

/-- The polling flag after a completion, by the answer it got. -/
theorem polling_complete (c : Completion) (n : Node) (w : ω) :
    (complete verifyToken c n w).2.1.server.polling =
      ((complete verifyToken c n w).1.map fun res =>
        pollingAfter res n.server.polling).getD n.server.polling := by
  unfold complete handleReceive
  split
  · dsimp only
    rw [respond_eq, Option.map_some, Option.getD_some]
    exact congrArg (pollingAfter _) (parseRequest_polling verifyToken _ _ _ _ _)
  · rfl

/-- Only a stop request switches polling off. -/
theorem polling_step_of_not_stop {s : System} {e : Event ω}
    (hstop : ¬Answers verifyToken 1 s e) (hon : s.node.server.polling = true) :
    (step verifyToken s e).node.server.polling = true := by
  cases e with
  | completion c w =>
      show (complete verifyToken c s.node w).2.1.server.polling = true
      rw [polling_complete, hon]
      cases hres : (complete verifyToken c s.node w).1 with
      | none => rfl
      | some res =>
          have hne : res ≠ 1 := by
            intro h1
            exact hstop (h1 ▸ hres)
          simp [pollingAfter, hne]
  | start => exact hon
  | rosShutdown => exact hon
  | publisher ros => exact hon

/-- Only a start request switches polling on. -/
theorem polling_step_of_not_start {s : System} {e : Event ω}
    (hstart : ¬Answers verifyToken 0 s e)
    (hoff : s.node.server.polling = false) :
    (step verifyToken s e).node.server.polling = false := by
  cases e with
  | completion c w =>
      show (complete verifyToken c s.node w).2.1.server.polling = false
      rw [polling_complete, hoff]
      cases hres : (complete verifyToken c s.node w).1 with
      | none => rfl
      | some res =>
          have hne : res ≠ 0 := by
            intro h0
            exact hstart (h0 ▸ hres)
          simp [pollingAfter, hne]
  | start => exact hoff
  | rosShutdown => exact hoff
  | publisher ros => exact hoff

/-- A stop request switches polling off and leaves the publisher alone. -/
theorem step_of_stop {s : System} {e : Event ω}
    (hstop : Answers verifyToken 1 s e) :
    (step verifyToken s e).node.server.polling = false ∧
      (step verifyToken s e).publisher = s.publisher := by
  cases e with
  | completion c w =>
      refine ⟨?_, rfl⟩
      show (complete verifyToken c s.node w).2.1.server.polling = false
      have hres : (complete verifyToken c s.node w).1 = some 1 := hstop
      rw [polling_complete, hres]
      simp [pollingAfter]
  | start => exact absurd hstop id
  | rosShutdown => exact absurd hstop id
  | publisher ros => exact absurd hstop id

/-- A step enters the innermost loop only from the test of `polling`. -/
theorem Publisher.inside_of_step {p : Publisher} {polling : Bool}
    {ros : RosAnswer} (hin : (p.step polling ros).Inside) :
    p.Inside ∨ polling = true := by
  unfold Publisher.step at hin
  split at hin
  · split at hin
    · exact absurd hin.1 (by simp)
    · exact Or.inl hin
  · split at hin
    · next hpoll => exact Or.inr hpoll
    · exact Or.inl hin
  · next hpc =>
      split at hin
      · next hros => exact Or.inl ⟨Or.inl hpc, hros⟩
      · exact absurd hin.1 (by simp)
  · next hpc =>
      split at hin
      · exact absurd hin.1 (by simp)
      · exact Or.inl ⟨Or.inr hpc, hin.2⟩
  · exact Or.inl hin

/-- The innermost loop is entered only with polling on. -/
theorem inside_of_step {s : System} {e : Event ω}
    (hin : (step verifyToken s e).publisher.Inside) :
    s.publisher.Inside ∨ s.node.server.polling = true := by
  cases e with
  | completion c w => exact Or.inl hin
  | start => exact Or.inl hin
  | rosShutdown => exact absurd hin.2 (by simp [step])
  | publisher ros => exact Publisher.inside_of_step hin

/-! ## Runs without a stop inside the innermost loop -/

/-- The index invariant, and polling on inside the innermost loop. -/
structure System.Inv (s : System) : Prop where
  publisher : s.publisher.Inv
  polling : s.publisher.Inside → s.node.server.polling = true

theorem System.inv_init (garbage : Buf) : (System.init garbage).Inv where
  publisher := { position := by simp [System.init, Publisher.init]
                 defined := by simp [System.init, Publisher.init] }
  polling := by simp [Publisher.Inside, System.init, Publisher.init]

theorem publisher_inv_step {s : System} (e : Event ω)
    (h : s.publisher.Inv) : (step verifyToken s e).publisher.Inv := by
  cases e with
  | completion c w => exact h
  | start => exact { position := h.position, defined := h.defined }
  | rosShutdown => exact { position := h.position, defined := h.defined }
  | publisher ros => exact h.step _ ros

theorem System.Inv.step {s : System} {e : Event ω} (h : s.Inv)
    (he : NoStopInside verifyToken s e) : (step verifyToken s e).Inv where
  publisher := publisher_inv_step verifyToken e h.publisher
  polling := by
    intro hin
    by_cases hstop : Answers verifyToken 1 s e
    · have hsame := (step_of_stop verifyToken hstop).2
      have hbefore : s.publisher.Inside := by
        unfold Publisher.Inside at hin ⊢
        rwa [hsame] at hin
      exact absurd hbefore (he hstop)
    · rcases inside_of_step verifyToken hin with hbefore | hon
      · exact polling_step_of_not_stop verifyToken hstop (h.polling hbefore)
      · exact polling_step_of_not_stop verifyToken hstop hon

/-- Iterations begin inside the innermost loop. -/
theorem System.Inv.beginsPolling {s : System} (h : s.Inv) (e : Event ω) :
    BeginsPolling s e := by
  intro hbegin
  cases e with
  | publisher ros => exact h.polling ⟨Or.inl hbegin.1, hbegin.2⟩
  | completion c w => exact absurd hbegin id
  | start => exact absurd hbegin id
  | rosShutdown => exact absurd hbegin id

/-- Scans published, counting the iteration under way. -/
def Publisher.committed (p : Publisher) : Nat :=
  p.published.length + if p.pc = .body then 1 else 0

/-- Only the test of the innermost loop commits the thread to one more scan. -/
theorem Publisher.committed_step_le {p : Publisher} (hout : ¬p.Inside)
    (polling : Bool) (ros : RosAnswer) :
    (p.step polling ros).committed ≤ p.committed := by
  unfold Publisher.step
  split
  · next hpc => split <;> simp [committed, hpc]
  · next hpc => split <;> simp [committed, hpc]
  · next hpc =>
      split
      · next hros => exact absurd ⟨Or.inl hpc, hros⟩ hout
      · simp [committed, hpc]
  · next hpc => split <;> simp [committed, hpc]
  · exact Nat.le_refl _

theorem committed_step_le {s : System} (e : Event ω)
    (hout : ¬s.publisher.Inside) :
    (step verifyToken s e).publisher.committed ≤ s.publisher.committed := by
  cases e with
  | completion c w => exact Nat.le_refl _
  | start => exact Nat.le_refl _
  | rosShutdown => exact Nat.le_refl _
  | publisher ros => exact Publisher.committed_step_le hout _ ros

/-- While polling stays off no further scan is committed to. -/
theorem committed_run_le (s : System) (es : List (Event ω)) (h : s.Inv)
    (hoff : s.node.server.polling = false)
    (hclean : EveryStep (step verifyToken) (NoStopInside verifyToken) s es)
    (hstart : EveryStep (step verifyToken)
      (fun t e => ¬Answers verifyToken 0 t e) s es) :
    (runFrom (step verifyToken) s es).publisher.committed ≤
      s.publisher.committed := by
  induction es generalizing s with
  | nil => exact Nat.le_refl _
  | cons e es ih =>
      have hout : ¬s.publisher.Inside := by
        intro hin
        simp [h.polling hin] at hoff
      calc (runFrom (step verifyToken) s (e :: es)).publisher.committed
          ≤ (step verifyToken s e).publisher.committed :=
            ih (step verifyToken s e) (h.step verifyToken hclean.1)
              (polling_step_of_not_start verifyToken hstart.1 hoff)
              hclean.2 hstart.2
        _ ≤ s.publisher.committed := committed_step_le verifyToken e hout

/-- A run without a stop inside the innermost loop honours its stops. -/
theorem stopHonoured_of_noStopInside (garbage : Buf) (es : List (Event ω))
    (h : EveryStep (step verifyToken) (NoStopInside verifyToken)
      (System.init garbage) es) :
    StopHonoured verifyToken (System.init garbage) es := by
  refine ⟨h.of_inv (fun s e hs he => hs.step verifyToken he)
    (fun s e hs _ => hs.beginsPolling e) (System.inv_init garbage), ?_⟩
  rintro pre stop post rfl hstop hquiet
  rcases everyStep_append.mp h with ⟨hpre, hnow, hpost⟩
  have hinv : (runFrom (step verifyToken) (System.init garbage) pre).Inv :=
    inv_runFrom_of_everyStep _ (fun s e hs he => hs.step verifyToken he) _ pre
      (System.inv_init garbage) hpre
  rw [runFrom_append] at hquiet ⊢
  rw [runFrom_cons]
  generalize runFrom (step verifyToken) (System.init garbage) pre = s at *
  rcases step_of_stop verifyToken hstop with ⟨hoff, hsame⟩
  have hle := committed_run_le verifyToken (step verifyToken s stop) post
    (hinv.step verifyToken hnow) hoff hpost hquiet
  calc (runFrom (step verifyToken) (step verifyToken s stop)
        post).publisher.published.length
      ≤ (runFrom (step verifyToken) (step verifyToken s stop)
          post).publisher.committed := Nat.le_add_right _ _
    _ ≤ (step verifyToken s stop).publisher.committed := hle
    _ = s.publisher.committed := by rw [hsame]
    _ ≤ s.publisher.published.length + 1 := by
        unfold Publisher.committed
        split <;> omega

/-! ## A stop inside the innermost loop is not honoured -/

/-- After a stop inside the loop the thread's next iteration begins with
polling off: two publisher steps reach it. -/
theorem not_beginsPolling_of_stop {s : System} {stop : Event ω}
    (h : s.publisher.Inv) (hstop : Answers verifyToken 1 s stop)
    (hin : s.publisher.Inside) (ros : RosAnswer) :
    ¬EveryStep (step verifyToken) BeginsPolling s
      [stop, .publisher ros, .publisher ros] := by
  rcases step_of_stop verifyToken hstop with ⟨hoff, hsame⟩
  intro h
  rcases h with ⟨-, hfirst, hsecond, -⟩
  rcases hin with ⟨hpc | hpc, hros⟩
  · have hon := hfirst ⟨by rw [hsame]; exact hpc, by rw [hsame]; exact hros⟩
    simp [hoff] at hon
  · rcases h.buildScan ros with ⟨scan, hscan⟩
    have hnext : (step verifyToken (step verifyToken s stop)
        (.publisher ros)).publisher.pc = .inner ∧
        (step verifyToken (step verifyToken s stop)
          (.publisher ros)).publisher.rosOk = true := by
      simp [hsame, Publisher.step, hpc, hscan, hros]
    have hon := hsecond hnext
    change (step verifyToken s stop).node.server.polling = true at hon
    simp [hoff] at hon

/-- **Stop requests.**  Along a run, and however the publisher thread is
scheduled after any part of it, stop requests are honoured exactly when none of
them is processed while the thread is in its innermost loop. -/
theorem stopHonoured_iff (garbage : Buf) (es : List (Event ω)) :
    (∀ pre, pre <+: es → ∀ ros : List RosAnswer,
      StopHonoured verifyToken (System.init garbage)
        (pre ++ ros.map .publisher)) ↔
      EveryStep (step verifyToken) (NoStopInside verifyToken)
        (System.init garbage) es := by
  constructor
  · intro h
    rw [everyStep_iff_split]
    rintro pre stop post rfl hstop hin
    have hrun := (h (pre ++ [stop]) ⟨post, by simp⟩
      [{ now := 0, frameId := none }, { now := 0, frameId := none }]).1
    rw [List.append_assoc] at hrun
    refine not_beginsPolling_of_stop verifyToken ?_ hstop hin
      { now := 0, frameId := none } (everyStep_append.mp hrun).2
    exact inv_runFrom (fun s : System => s.publisher.Inv)
      (fun _ e => publisher_inv_step verifyToken e) _ pre
      (System.inv_init garbage).publisher
  · rintro h pre ⟨post, rfl⟩ ros
    apply stopHonoured_of_noStopInside
    rw [everyStep_append]
    refine ⟨(everyStep_append.mp h).1, ?_⟩
    rw [everyStep_iff_split]
    intro before e after heq hstop
    have hmem : e ∈ ros.map .publisher := by rw [heq]; simp
    rcases List.mem_map.mp hmem with ⟨r, -, rfl⟩
    exact absurd hstop id

/-- An oracle that accepts every token. -/
def acceptAll (_ : List UInt8) (w : Unit) : Int × Unit := (1, w)

/-- A complete request arrives. -/
def request (start : UInt8) : Event Unit :=
  .completion
    { datagram := Datagram.full (frame start 65), error := .success } ()

/-- A start, two publisher steps into the innermost loop, a stop: the next
iteration begins all the same. -/
theorem not_stopHonoured :
    ¬∀ (garbage : Buf) (es : List (Event Unit)),
      StopHonoured acceptAll (System.init garbage) es := by
  intro h
  have hrun := (h (Vector.replicate readBufSize 0)
    [.start, .publisher { now := 0, frameId := none },
      request 'S'.toNat.toUInt8, .publisher { now := 1, frameId := none },
      request 's'.toNat.toUInt8, .publisher { now := 2, frameId := none }]).1
  have hon := hrun.2.2.2.2.2.1 ⟨by decide, by decide⟩
  revert hon
  decide

end LidarPublisher.Polling.StartPolling

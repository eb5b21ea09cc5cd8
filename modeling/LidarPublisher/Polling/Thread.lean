import LidarPublisher.Lib.History
import LidarPublisher.Lib.Simulation
import LidarPublisher.Polling.Sweep

/-!
# The publisher thread on its own

To the publisher thread the request handler is a flag that it reads in its outer
loop.  With that reading as an input the thread is a system of its own, and a run
of the whole node contains a run of the thread.  Its messages are determined by
their number and by the clock.
-/

namespace LidarPublisher.Polling.Thread

open LidarPublisher.Lib.Run
open LidarPublisher.Lib.History
open LidarPublisher.Lib.Simulation
open LidarPublisher.Scan.Message
open LidarPublisher.Udp
open LidarPublisher.Polling.StartPolling
open LidarPublisher.Polling.Sweep

/-- What happens to the thread: `start()`, the end of ROS, and its own steps,
each with the value that `polling` has at the time. -/
inductive Input
  | start
  | rosShutdown
  | step (polling : Bool) (ros : RosAnswer)

/-- One event of the thread. -/
def advance (p : Publisher) : Input → Publisher
  | .start => { p with initialized := true }
  | .rosShutdown => { p with rosOk := false }
  | .step polling ros => p.step polling ros

/-- The clock readings offered to a run. -/
def clock (es : List Input) : List Nat :=
  es.filterMap fun e =>
    match e with
    | .step _ ros => some ros.now
    | _ => none

/-- A run of both threads contains a run of the publisher thread. -/
def thread {ω : Type} (verifyToken : List UInt8 → ω → Int × ω) :
    View (StartPolling.step verifyToken) advance where
  state := System.publisher
  events s e :=
    match e with
    | .completion _ _ => []
    | .start => [.start]
    | .rosShutdown => [.rosShutdown]
    | .publisher ros => [.step s.node.server.polling ros]
  state_step _ e := by cases e <;> rfl

/-! ## The messages -/

/-- The `n`-th message, published at the time `stamp`. -/
def scanAt (frameId : String) (n stamp : Nat) : LaserScan :=
  { frameId := frameId, stamp := stamp
    angleMin := 0, angleMax := ofDouble (2 * mPi)
    angleIncrement := ofDouble (2 * mPi / 360)
    rangeMin := ofDouble (1 / 100), rangeMax := 6, timeIncrement := 1080
    ranges := reading (n % 360), intensities := reading (n % 360) }

/-- A scan built at position `n`. -/
theorem buildScan_eq_scanAt {p : Publisher} {n : Nat}
    (hpos : p.scanPosition = ((n % 360 : Nat) : Int)) (hdist : p.distance = 2)
    (ros : RosAnswer) :
    p.buildScan ros = some (scanAt p.frameId n ros.now) := by
  have hmod : n % 360 < 360 := Nat.mod_lt _ (by decide)
  have hstore : storeAt (List.replicate 360 0) ((n % 360 : Nat) : Int) 2 =
      some (reading (n % 360)) :=
    storeAt_eq_some 2 (by rw [List.length_replicate]; omega)
  have hresize : resize 360 [] = List.replicate 360 0 := rfl
  unfold Publisher.buildScan LaserScan.store
  simp only [LaserScan.prepare, LaserScan.new, hpos, hdist, hresize]
  rw [round_two, hstore]
  rfl

/-- The messages with these stamps. -/
def messages (frameId : String) (stamps : List Nat) : List (LaserScan × Nat) :=
  stamps.mapIdx fun n stamp => (scanAt frameId n stamp, 180)

@[simp] theorem length_messages (frameId : String) (stamps : List Nat) :
    (messages frameId stamps).length = stamps.length := List.length_mapIdx

theorem messages_concat (frameId : String) (stamps : List Nat) (stamp : Nat) :
    messages frameId (stamps ++ [stamp]) =
      messages frameId stamps ++
        [(scanAt frameId stamps.length stamp, 180)] := by
  unfold messages
  rw [List.mapIdx_concat]

/-! ## The invariant of the thread -/

/-- The messages published so far are those with the stamps `stamps`, and
`scan_position` is the bearing of the next one.  Only the end of ROS leads out of
the innermost loop, so outside of it nothing has been published yet. -/
structure Inv (stamps : List Nat) (p : Publisher) : Prop where
  published : p.published = messages p.frameId stamps
  distance : p.distance = 2
  defined : p.pc ≠ .undefined
  position : p.pc = .body ∨ p.pc = .inner ∧ p.rosOk = true →
    p.scanPosition = ((stamps.length % 360 : Nat) : Int)
  fresh : p.pc = .outer → p.rosOk = true → stamps = []
  waiting : p.pc = .waiting → stamps = []

theorem inv_init : Inv [] Publisher.init where
  published := rfl
  distance := rfl
  defined := by decide
  position := by decide
  fresh := by decide
  waiting := fun _ => rfl

/-- One step of the thread publishes the message due, or none. -/
theorem Inv.step {stamps : List Nat} {p : Publisher} (h : Inv stamps p)
    (polling : Bool) (ros : RosAnswer) :
    Inv stamps (p.step polling ros) ∨
      Inv (stamps ++ [ros.now]) (p.step polling ros) := by
  cases hpc : p.pc with
  | waiting =>
      left
      have hnil := h.waiting hpc
      subst hnil
      unfold Publisher.step
      rw [hpc]
      dsimp only
      split
      · exact
          { published := h.published
            distance := h.distance
            defined := by simp
            position := by simp
            fresh := fun _ _ => rfl
            waiting := by simp }
      · exact h
  | outer =>
      left
      unfold Publisher.step
      rw [hpc]
      dsimp only
      split
      · refine
          { published := h.published
            distance := rfl
            defined := by simp
            position := ?_
            fresh := by simp
            waiting := by simp }
        intro hinner
        have hros : p.rosOk = true := by simpa using hinner
        rw [h.fresh hpc hros]
        rfl
      · exact h
  | inner =>
      left
      unfold Publisher.step
      rw [hpc]
      dsimp only
      split
      · next hros =>
          exact
            { published := h.published
              distance := h.distance
              defined := by simp
              position := fun _ => h.position (Or.inr ⟨hpc, hros⟩)
              fresh := by simp
              waiting := by simp }
      · next hros =>
          exact
            { published := h.published
              distance := h.distance
              defined := by simp
              position := by simp
              fresh := fun _ hon => absurd hon hros
              waiting := by simp }
  | body =>
      right
      have hpos := h.position (Or.inl hpc)
      unfold Publisher.step
      rw [hpc]
      dsimp only
      rw [buildScan_eq_scanAt hpos h.distance]
      refine
        { published := ?_
          distance := h.distance
          defined := by simp
          position := fun _ => ?_
          fresh := by simp
          waiting := by simp }
      · show p.published ++ _ = _
        rw [h.published, messages_concat]
      · dsimp only
        rw [hpos, wrap_eq_mod, List.length_append, List.length_singleton]
  | undefined => exact absurd hpc h.defined

/-- The other events publish nothing. -/
theorem Inv.of_not_step {stamps : List Nat} {p : Publisher} (h : Inv stamps p)
    {e : Input} (he : e = .start ∨ e = .rosShutdown) :
    Inv stamps (advance p e) := by
  rcases he with rfl | rfl
  · exact { h with }
  · exact
      { published := h.published
        distance := h.distance
        defined := h.defined
        position := fun hpc => h.position (Or.inl (by simpa [advance] using hpc))
        fresh := fun _ hon => absurd hon (by simp [advance])
        waiting := h.waiting }

/-- The frame name is one that a step of the thread was given. -/
def Named (es : List Input) (p : Publisher) : Prop :=
  p.pc = .waiting ∨ ∃ polling ros, Input.step polling ros ∈ es ∧
    p.frameId = ros.frameId.getD "lidar_scanner"

theorem clock_concat (es : List Input) (e : Input) :
    clock (es ++ [e]) = clock es ++ clock [e] := List.filterMap_append

/-- Along a run the stamps are clock readings, in order. -/
theorem Inv.runFrom {stamps : List Nat} {p : Publisher} (h : Inv stamps p)
    (es : List Input) :
    ∃ more, more.Sublist (clock es) ∧
      Inv (stamps ++ more) (runFrom advance p es) := by
  apply inv_history (fun es q => ∃ more, more.Sublist (clock es) ∧
    Inv (stamps ++ more) q)
  · exact ⟨[], List.Sublist.refl _, (List.append_nil stamps).symm ▸ h⟩
  · intro es e h
    rcases h with ⟨more, hsub, hinv⟩
    rw [clock_concat]
    have hsame : more.Sublist (clock es ++ clock [e]) :=
      hsub.trans (List.sublist_append_left _ _)
    cases e with
    | start => exact ⟨more, hsame, hinv.of_not_step (Or.inl rfl)⟩
    | rosShutdown => exact ⟨more, hsame, hinv.of_not_step (Or.inr rfl)⟩
    | step polling ros =>
        rcases hinv.step polling ros with hkept | hgrown
        · exact ⟨more, hsame, hkept⟩
        · rw [List.append_assoc] at hgrown
          exact ⟨more ++ [ros.now], hsub.append (List.Sublist.refl _), hgrown⟩

theorem named_runFrom (es : List Input) :
    Named es (runFrom advance Publisher.init es) := by
  apply inv_history Named
  · exact Or.inl rfl
  · intro es e h
    generalize runFrom advance Publisher.init es = p at h
    have hmono : ∀ q : Publisher, q.frameId = p.frameId →
        (p.pc = .waiting → q.pc = .waiting) → Named (es ++ [e]) q := by
      intro q hframe hpc
      rcases h with hwaiting | ⟨polling, ros, hmem, hname⟩
      · exact Or.inl (hpc hwaiting)
      · exact Or.inr ⟨polling, ros, by simp [hmem], hframe.trans hname⟩
    cases e with
    | start => exact hmono _ rfl id
    | rosShutdown => exact hmono _ rfl id
    | step polling ros =>
        show Named (es ++ [.step polling ros]) (p.step polling ros)
        unfold Publisher.step
        cases hpc : p.pc with
        | waiting =>
            dsimp only
            split
            · exact Or.inr ⟨polling, ros, by simp, rfl⟩
            · exact hmono _ rfl (fun _ => hpc)
        | outer =>
            dsimp only
            split
            · exact hmono _ rfl (by simp [hpc])
            · exact hmono _ rfl (by simp [hpc])
        | inner =>
            dsimp only
            split
            · exact hmono _ rfl (by simp [hpc])
            · exact hmono _ rfl (by simp [hpc])
        | body =>
            dsimp only
            split
            · exact hmono _ rfl (by simp [hpc])
            · exact hmono _ rfl (by simp [hpc])
        | undefined => exact hmono _ rfl (by simp [hpc])

/-! ## The whole node -/

variable {ω : Type} (verifyToken : List UInt8 → ω → Int × ω)

/-- The clock readings that ROS answers in a run of both threads. -/
def rosClock (es : List (Event ω)) : List Nat :=
  es.filterMap fun e =>
    match e with
    | .publisher ros => some ros.now
    | _ => none

/-- The view of the thread sees the same clock. -/
theorem clock_trace (s : System) (es : List (Event ω)) :
    clock ((thread verifyToken).trace s es) = rosClock es := by
  refine View.filterMap_trace _ (fun t e => ?_) s es
  cases e <;> rfl

/-- A step of the thread is an event of the run. -/
theorem mem_of_mem_trace {s : System} {es : List (Event ω)} {polling : Bool}
    {ros : RosAnswer}
    (h : Input.step polling ros ∈ (thread verifyToken).trace s es) :
    Event.publisher ros ∈ es := by
  rcases View.exists_of_mem_trace _ h with ⟨t, e, hmem, hevent⟩
  cases e with
  | completion c w => exact absurd hevent List.not_mem_nil
  | start => exact absurd (List.mem_singleton.mp hevent) (by simp)
  | rosShutdown => exact absurd (List.mem_singleton.mp hevent) (by simp)
  | publisher ros' =>
      have heq := List.mem_singleton.mp hevent
      injection heq with _ hros
      rw [hros]
      exact hmem

/-- **Everything the node ever publishes.**  Whatever requests arrive, and
whenever the thread reads the flag, the messages of a run are the readings of
bearings 0, 1, 2, … of one sweep that no stop request interrupts, under the name
ROS answered, with clock readings of the run as stamps, in order. -/
theorem published_eq (garbage : ParseRequest.Buf) (es : List (Event ω)) :
    let p := (runFrom (StartPolling.step verifyToken) (System.init garbage)
      es).publisher
    p.pc ≠ .undefined ∧
      ∃ stamps, stamps.Sublist (rosClock es) ∧
        p.published = messages p.frameId stamps ∧
        (stamps ≠ [] → ∃ ros, Event.publisher ros ∈ es ∧
          p.frameId = ros.frameId.getD "lidar_scanner") := by
  intro p
  have hview : p = runFrom advance Publisher.init
      ((thread verifyToken).trace (System.init garbage) es) :=
    (thread verifyToken).state_runFrom (System.init garbage) es
  rcases inv_init.runFrom ((thread verifyToken).trace (System.init garbage) es)
    with ⟨stamps, hsub, hinv⟩
  rw [← hview, List.nil_append] at hinv
  rw [clock_trace] at hsub
  refine ⟨hinv.defined, stamps, hsub, hinv.published, ?_⟩
  intro hne
  rcases named_runFrom ((thread verifyToken).trace (System.init garbage) es) with
    hwaiting | ⟨polling, ros, hmem, hname⟩
  · rw [← hview] at hwaiting
    exact absurd (hinv.waiting hwaiting) hne
  · rw [← hview] at hname
    exact ⟨ros, mem_of_mem_trace verifyToken hmem, hname⟩

end LidarPublisher.Polling.Thread

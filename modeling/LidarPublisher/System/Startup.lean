import LidarPublisher.System.Step

/-!
# How the process comes up

The constructors start both threads before they are done: the publisher runs
while `initialized` and the arguments of `main` are still to be set, and the
receive thread while `lidar_server` is a null pointer.  The statements of the
main thread interleave here with everything else; what comes out, where nothing
is read too early, is the initial state of `Process`.
-/

namespace LidarPublisher.System.Startup

open LidarPublisher.Lib.Run
open LidarPublisher.Lib.Simulation
open LidarPublisher.Sqlite.Execute
open LidarPublisher.Udp.ParseRequest
open LidarPublisher.Udp.HandleReceive
open LidarPublisher.Polling.StartPolling (Publisher RosAnswer)
open LidarPublisher.System.Step (Process Occasion)

/-- The next statement of the main thread. -/
inductive Main
  /-- `service_thread(std::bind(&lidarserver::startPolling, this))` -/
  | startPublisher
  /-- `bool initialized = false` -/
  | clearInitialized
  /-- `read_buf.fill(0)` -/
  | fillReadBuf
  /-- `token = ""` -/
  | clearToken
  /-- `this->argc = argc` and `this->argv = argv` -/
  | setArgs
  /-- `this->polling = false` -/
  | clearPolling
  /-- `service_thread(std::bind(&sockethandler::initialize, this))` -/
  | startReceiver
  /-- `this->lidar_server = lidar_server_ptr(server)` -/
  | setServer
  /-- `initialized = true` in `lidarserver::start` -/
  | setInitialized
  /-- `while(true)` -/
  | idle
  deriving DecidableEq, Repr

/-- What the members hold that no constructor has written yet. -/
structure Memory where
  serverBuf : Buf
  socketBuf : Buf
  initialized : Bool
  polling : Bool

/-- What must not be read before it is written. -/
inductive Fault
  /-- `ros::init` with the arguments of nobody. -/
  | unsetArgs
  /-- `this->lidar_server->parseRequest` through a null pointer. -/
  | nullServer
  deriving DecidableEq, Repr

/-- The publisher thread runs. -/
def Main.publisherStarted : Main → Bool
  | .startPublisher => false
  | _ => true

/-- The constructor has written `initialized`. -/
def Main.initializedSet : Main → Bool
  | .startPublisher | .clearInitialized => false
  | _ => true

/-- `argc` and `argv` are those of `main`. -/
def Main.argsSet : Main → Bool
  | .startPublisher | .clearInitialized | .fillReadBuf | .clearToken | .setArgs =>
      false
  | _ => true

/-- The receive thread runs. -/
def Main.receiverStarted : Main → Bool
  | .setServer | .setInitialized | .idle => true
  | _ => false

/-- `lidar_server` is no null pointer. -/
def Main.serverSet : Main → Bool
  | .setInitialized | .idle => true
  | _ => false

/-- The pointers and flags that the main thread alone writes are told by its
place. -/
structure State where
  main : Main
  process : Process
  fault : Option Fault

/-- The storage of a new `lidarserver`. -/
def State.init (m : Memory) (table : Table) : State :=
  { main := .startPublisher
    process :=
      { node :=
          { socket := { readBuf := m.socketBuf, outstanding := 0 }
            server :=
              { readBuf := m.serverBuf, token := [], polling := m.polling } }
        publisher := { Publisher.init with initialized := m.initialized }
        db := { table := table, handles := [] } }
    fault := none }

/-- A write to members of the server. -/
def State.assign (s : State) (f : Server → Server) : State :=
  { s with
    process :=
      { s.process with
        node := { s.process.node with server := f s.process.node.server } } }

def State.setInitialized (s : State) (b : Bool) : State :=
  { s with
    process :=
      { s.process with
        publisher := { s.process.publisher with initialized := b } } }

/-- One statement of the main thread.  The receive thread is started with its
first `start_receive`: before that nothing can complete. -/
def State.advance (s : State) : State :=
  match s.main with
  | .startPublisher => { s with main := .clearInitialized }
  | .clearInitialized => { s.setInitialized false with main := .fillReadBuf }
  | .fillReadBuf =>
      { s.assign fun v => { v with readBuf := Vector.replicate readBufSize 0 } with
        main := .clearToken }
  | .clearToken =>
      { s.assign fun v => { v with token := [] } with main := .setArgs }
  | .setArgs => { s with main := .clearPolling }
  | .clearPolling =>
      { s.assign fun v => { v with polling := false } with main := .startReceiver }
  | .startReceiver =>
      { s with
        main := .setServer
        process := { s.process with node := startReceive s.process.node } }
  | .setServer => { s with main := .setInitialized }
  | .setInitialized => { s.setInitialized true with main := .idle }
  | .idle => s

inductive Event
  | main
  | completion (c : Completion) (o : Occasion)
  | write (table : Table)
  | rosShutdown
  | publisher (ros : RosAnswer)

variable (e : Engine)

/-- One event while the process comes up. -/
def State.react (s : State) : Event → State
  | .main => s.advance
  | .completion c o =>
      if s.process.node.socket.outstanding ≠ 0 ∧ c.error ≠ .other ∧
          s.main.serverSet = false then
        { s with fault := some .nullServer }
      else { s with process := Step.step e s.process (.completion c o) }
  | .write table => { s with process := Step.step e s.process (.write table) }
  | .rosShutdown => { s with process := Step.step e s.process .rosShutdown }
  | .publisher ros =>
      if s.main.publisherStarted = false then s
      else if s.process.publisher.pc = .waiting ∧
          s.process.publisher.initialized = true ∧ s.main.argsSet = false then
        { s with fault := some .unsetArgs }
      else { s with process := Step.step e s.process (.publisher ros) }

/-- After a fault anything may happen, and nothing more is said. -/
def step (s : State) (ev : Event) : State :=
  if s.fault = none then s.react e ev else s

/-- The events of the process that an event stands for. -/
def State.events (s : State) : Event → List Step.Event
  | .main => if s.main = .setInitialized then [.start] else []
  | .completion c o =>
      if s.process.node.socket.outstanding = 0 then [] else [.completion c o]
  | .write table => [.write table]
  | .rosShutdown => [.rosShutdown]
  | .publisher ros => if s.main.publisherStarted = false then [] else [.publisher ros]

/-! ## Members not written yet -/

/-- The statements before `start()` that are still to come. -/
def Main.remaining : Main → Nat
  | .startPublisher => 8
  | .clearInitialized => 7
  | .fillReadBuf => 6
  | .clearToken => 5
  | .setArgs => 4
  | .clearPolling => 3
  | .startReceiver => 2
  | .setServer => 1
  | .setInitialized => 0
  | .idle => 0

/-- The process as the constructors will leave it. -/
def State.constructed (s : State) : Process :=
  (State.advance^[s.main.remaining] s).process

theorem constructed_init (m : Memory) (table : Table) :
    (State.init m table).constructed = Process.init m.socketBuf table := rfl

/-- What holds while the main thread is on its way, with `initialized` as it was
found until it is written. -/
structure Starting (m : Memory) (s : State) : Prop where
  unarmed : s.main.receiverStarted = false →
    s.process.node.socket.outstanding = 0
  waiting : s.main ≠ .idle → s.process.publisher.pc = .waiting
  initialized : s.main ≠ .idle →
    s.process.publisher.initialized = (!s.main.initializedSet && m.initialized)

/-- The main thread keeps to its plan, and nothing it does before `start()` is
news to the finished process. -/
theorem Starting.advance {m : Memory} {s : State} (h : Starting m s) :
    Starting m s.advance ∧
      s.advance.constructed =
        runFrom (Step.step e) s.constructed (s.events .main) := by
  rcases s with ⟨main, p, fault⟩
  cases main with
  | startPublisher =>
      exact ⟨⟨fun _ => h.unarmed rfl, fun _ => h.waiting nofun,
        fun _ => h.initialized nofun⟩, rfl⟩
  | clearInitialized =>
      exact ⟨⟨fun _ => h.unarmed rfl, fun _ => h.waiting nofun, fun _ => rfl⟩, rfl⟩
  | fillReadBuf | clearToken | setArgs | clearPolling =>
      exact ⟨⟨fun _ => h.unarmed rfl, fun _ => h.waiting nofun,
        fun _ => h.initialized nofun⟩, rfl⟩
  | startReceiver | setServer =>
      exact ⟨⟨nofun, fun _ => h.waiting nofun, fun _ => h.initialized nofun⟩, rfl⟩
  | setInitialized =>
      exact ⟨⟨nofun, fun hidle => absurd rfl hidle, fun hidle => absurd rfl hidle⟩,
        rfl⟩
  | idle => exact ⟨h, rfl⟩

/-! ## The other threads meanwhile -/

/-- Something is read before it is written: `initialized` behind the back of its
initializer, or `lidar_server` by a datagram that comes in at once. -/
def TooEarly (m : Memory) (s : State) : Event → Prop
  | .publisher _ => s.main = .clearInitialized ∧ m.initialized = true
  | .completion c _ =>
      s.main = .setServer ∧ s.process.node.socket.outstanding ≠ 0 ∧
        c.error ≠ .other
  | _ => False

theorem publisher_of_waiting {p : Process} (hpc : p.publisher.pc = .waiting)
    (hinit : p.publisher.initialized = false) (ros : RosAnswer) :
    Step.step e p (.publisher ros) = p := by
  have hstay : p.publisher.step p.node.server.polling ros = p.publisher := by
    unfold Publisher.step
    rw [hpc]
    dsimp only
    rw [hinit, if_neg Bool.false_ne_true]
  show { p with publisher := p.publisher.step p.node.server.polling ros } = p
  rw [hstay]

/-- The publisher thread of the finished process waits, too. -/
theorem Starting.constructed_publisher {m : Memory} {s : State}
    (h : Starting m s) (hmain : s.main ≠ .idle) :
    s.constructed.publisher.pc = .waiting ∧
      s.constructed.publisher.initialized = false := by
  have hwaiting := h.waiting hmain
  have hinit := h.initialized hmain
  rcases s with ⟨main, p, fault⟩
  cases main with
  | startPublisher | clearInitialized => exact ⟨hwaiting, rfl⟩
  | idle => exact absurd rfl hmain
  | _ => exact ⟨hwaiting, hinit⟩

theorem constructed_of_receiverStarted {s : State}
    (h : s.main.receiverStarted = true) : s.constructed = s.process := by
  rcases s with ⟨main, p, fault⟩
  cases main with
  | setServer | setInitialized | idle => rfl
  | _ => exact absurd h nofun

theorem constructed_with {s : State} (h : s.main.receiverStarted = true)
    (p : Process) : { s with process := p }.constructed = p :=
  constructed_of_receiverStarted (s := { s with process := p }) h

theorem Main.initializedSet_of {main : Main} (hstart : ¬main.publisherStarted = false)
    (hclear : main ≠ .clearInitialized) : main.initializedSet = true := by
  cases main with
  | startPublisher => exact absurd rfl hstart
  | clearInitialized => exact absurd rfl hclear
  | _ => rfl

theorem Main.eq_setServer_of {main : Main} (hstart : main.receiverStarted = true)
    (hserver : main.serverSet = false) : main = .setServer := by
  cases main with
  | setServer => rfl
  | setInitialized | idle => exact absurd hserver nofun
  | _ => exact absurd hstart nofun

/-- A completion leaves the publisher alone, and needs a receive operation. -/
theorem publisher_completion (p : Process) (c : Completion) (o : Occasion) :
    (Step.step e p (.completion c o)).publisher = p.publisher := by
  unfold Step.step
  dsimp only
  split
  · rfl
  · rfl

theorem completion_of_unarmed {p : Process} (h : p.node.socket.outstanding = 0)
    (c : Completion) (o : Occasion) : Step.step e p (.completion c o) = p :=
  if_pos h

theorem fault_advance (s : State) : s.advance.fault = s.fault := by
  rcases s with ⟨main, p, fault⟩
  cases main <;> rfl

/-- What a step without a fault does. -/
structure Advances (m : Memory) (s : State) (ev : Event) : Prop where
  fault : (s.react e ev).fault = s.fault
  starting : Starting m (s.react e ev)
  constructed : (s.react e ev).constructed =
    runFrom (Step.step e) s.constructed (s.events ev)

theorem Starting.publisher {m : Memory} {s : State} (h : Starting m s)
    {ros : RosAnswer} (hearly : ¬TooEarly m s (.publisher ros)) :
    Advances e m s (.publisher ros) := by
  by_cases hstart : s.main.publisherStarted = false
  · have hreact : s.react e (.publisher ros) = s := if_pos hstart
    have hevents : s.events (.publisher ros) = [] := if_pos hstart
    refine ⟨?_, ?_, ?_⟩
    · rw [hreact]
    · rw [hreact]
      exact h
    · rw [hreact, hevents]
      rfl
  have hevents : s.events (.publisher ros) = [.publisher ros] := if_neg hstart
  by_cases hidle : s.main = .idle
  · have hreact : s.react e (.publisher ros) =
        { s with process := Step.step e s.process (.publisher ros) } := by
      unfold State.react
      dsimp only
      rw [if_neg hstart, if_neg (by simp [hidle, Main.argsSet])]
    have hstarted : s.main.receiverStarted = true := by rw [hidle]; rfl
    refine ⟨?_, ⟨?_, ?_, ?_⟩, ?_⟩
    · rw [hreact]
    · rw [hreact]
      intro hnot
      rw [hstarted] at hnot
      exact absurd hnot nofun
    · rw [hreact]
      exact fun hnot => absurd hidle hnot
    · rw [hreact]
      exact fun hnot => absurd hidle hnot
    · rw [hreact, hevents, constructed_of_receiverStarted hstarted,
        constructed_with hstarted]
      rfl
  · have hwaiting := h.waiting hidle
    have hinit : s.process.publisher.initialized = false := by
      rw [h.initialized hidle]
      by_cases hclear : s.main = .clearInitialized
      · have hm : m.initialized = false := by
          rw [← Bool.not_eq_true]
          exact fun hm => hearly ⟨hclear, hm⟩
        rw [hm, Bool.and_false]
      · rw [Main.initializedSet_of hstart hclear]
        rfl
    have hsame := publisher_of_waiting e hwaiting hinit ros
    have hreact : s.react e (.publisher ros) = s := by
      unfold State.react
      dsimp only
      rw [if_neg hstart, if_neg (by simp [hinit]), hsame]
    rcases h.constructed_publisher hidle with ⟨hwaiting', hinit'⟩
    refine ⟨?_, ?_, ?_⟩
    · rw [hreact]
    · rw [hreact]
      exact h
    · rw [hreact, hevents]
      exact (publisher_of_waiting e hwaiting' hinit' ros).symm

theorem Starting.completion {m : Memory} {s : State} (h : Starting m s)
    {c : Completion} {o : Occasion} (hearly : ¬TooEarly m s (.completion c o)) :
    Advances e m s (.completion c o) := by
  have hsafe : ¬(s.process.node.socket.outstanding ≠ 0 ∧ c.error ≠ .other ∧
      s.main.serverSet = false) := by
    rintro ⟨harmed, herror, hserver⟩
    cases hstarted : s.main.receiverStarted with
    | false => exact harmed (h.unarmed hstarted)
    | true => exact hearly ⟨Main.eq_setServer_of hstarted hserver, harmed, herror⟩
  have hreact : s.react e (.completion c o) =
      { s with process := Step.step e s.process (.completion c o) } :=
    if_neg hsafe
  by_cases harmed : s.process.node.socket.outstanding = 0
  · rw [completion_of_unarmed e harmed] at hreact
    have hevents : s.events (.completion c o) = [] := if_pos harmed
    refine ⟨?_, ?_, ?_⟩
    · rw [hreact]
    · rw [hreact]
      exact h
    · rw [hreact, hevents]
      rfl
  · have hevents : s.events (.completion c o) = [.completion c o] := if_neg harmed
    have hpublisher := publisher_completion e s.process c o
    have hstarted : s.main.receiverStarted = true := by
      rw [← Bool.not_eq_false]
      exact fun hnot => harmed (h.unarmed hnot)
    refine ⟨?_, ⟨?_, ?_, ?_⟩, ?_⟩
    · rw [hreact]
    · rw [hreact]
      intro hnot
      rw [hstarted] at hnot
      exact absurd hnot nofun
    · rw [hreact]
      dsimp only
      rw [hpublisher]
      exact h.waiting
    · rw [hreact]
      dsimp only
      rw [hpublisher]
      exact h.initialized
    · rw [hreact, hevents, constructed_of_receiverStarted hstarted,
        constructed_with hstarted]
      rfl

theorem Starting.react {m : Memory} {s : State} (h : Starting m s) {ev : Event}
    (hearly : ¬TooEarly m s ev) : Advances e m s ev := by
  cases ev with
  | publisher ros => exact h.publisher e hearly
  | completion c o => exact h.completion e hearly
  | main => exact ⟨fault_advance s, (h.advance e).1, (h.advance e).2⟩
  | write table =>
      refine ⟨rfl, ⟨h.unarmed, h.waiting, h.initialized⟩, ?_⟩
      rcases s with ⟨main, p, fault⟩
      cases main <;> rfl
  | rosShutdown =>
      refine ⟨rfl, ⟨h.unarmed, h.waiting, h.initialized⟩, ?_⟩
      rcases s with ⟨main, p, fault⟩
      cases main <;> rfl

end LidarPublisher.System.Startup

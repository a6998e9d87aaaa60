import AcflyRos.Foundation.Transition

/-! # The supervisor and its surroundings

The state of `AcflyDaemon` (`acfly_daemon_node.cpp`) next to what it observes: the
table of its unreaped children, the two clocks it reads, the odometry topic and
the log of the signals and forks it performed.

Whatever the surroundings do is scripted: a callback consumes one `Beat` at each
point where it reads a clock, waits, forks or sleeps, so that time may pass,
children may exit and messages may be published between any two such points.
Durations, the YAML file's seconds included, are whole nanoseconds, the
resolution of `rclcpp::Time`.
-/

namespace AcflyRos.Daemon

/-- `pid_t`. -/
abbrev Pid := Int

inductive ProcessState where
  | pending
  | starting
  | running
  | restarting
  | stopping
  | stopped
  deriving DecidableEq, Repr

def stateToStr : ProcessState → String
  | .pending => "PENDING"
  | .starting => "STARTING"
  | .running => "RUNNING"
  | .restarting => "RESTARTING"
  | .stopping => "STOPPING"
  | .stopped => "STOPPED"

/-- The clock an `rclcpp::Time` was read from. -/
inductive ClockType where
  | systemTime
  | rosTime
  deriving DecidableEq, Repr

/-- `rclcpp::Time`. A default-constructed value is at zero on the system clock,
whereas the node reads its own clock as ROS time. -/
structure Time where
  nanoseconds : Int := 0
  clockType : ClockType := .systemTime
  deriving DecidableEq, Repr

/-- `rclcpp::Time::operator-`, which throws when the time sources differ. -/
def Time.sub? (left right : Time) : Option Int :=
  if left.clockType = right.clockType then some (left.nanoseconds - right.nanoseconds) else none

/-- One second. -/
def sec : Int := 1000000000

/-- What `waitpid` reports about an exited child. -/
inductive WaitStatus where
  | exited (code : Int)
  | signaled (signal : Int)
  deriving DecidableEq, Repr

def WaitStatus.exitCode : WaitStatus → Int
  | .exited code => code
  | .signaled signal => -signal

def WaitStatus.exitReason : WaitStatus → String
  | .exited code => "exit:" ++ toString code
  | .signaled signal => "signal:" ++ toString signal

structure ManagedProcess where
  name : String
  command : String := ""
  args : List String := []
  autoRestart : Bool := true
  shutdownTimeoutSec : Int := 10 * sec
  dependencies : List String := []
  waitForTopics : List String := []
  pid : Pid := -1
  state : ProcessState := .pending
  restartCount : Int := 0
  startTime : Time := {}
  crashTime : Time := {}
  exitCode : Int := 0
  exitReason : String := ""
  currentBackoffSec : Int := sec
  stopRequestTime : Time := {}
  stopping : Bool := false
  deriving DecidableEq, Repr

/-- A child that has not been reaped. Process ids are reused after reaping; the
serial number, the count of earlier forks, tells instances apart. -/
structure Child where
  pid : Pid
  serial : Nat
  owner : String
  /-- Set once the child has exited and is waiting to be reaped. -/
  status : Option WaitStatus := none
  /-- Whether the child has been sent SIGKILL. -/
  killed : Bool := false
  deriving DecidableEq, Repr

/-- One message on the status topic. -/
structure ProcessStatus where
  name : String
  state : String
  pid : Pid
  restartCount : Int
  uptimeSec : Int
  exitCode : Int
  exitReason : String
  deriving DecidableEq, Repr

/-- The answer of a service. -/
structure Response where
  success : Bool
  message : String
  statuses : List ProcessStatus := []
  deriving DecidableEq, Repr

/-- What the supervisor does to the outside. Clock readings are the node clock at
that moment; `child` is the serial number of the unreaped child with that pid. -/
inductive Event where
  /-- `fork` succeeded for an entry; `table` lists every entry's state then. -/
  | forked (entry : Nat) (child : Nat) (pid : Pid) (table : List (String × ProcessState))
  /-- SIGINT from `request_stop`. -/
  | stopRequested (pid : Pid) (child : Option Nat) (time : Int)
  /-- SIGKILL from `force_kill`, with the entry's own shutdown timeout. -/
  | forceKilled (pid : Pid) (child : Option Nat) (shutdownTimeoutSec : Int) (time : Int)
  /-- SIGKILL from `check_odin_health`, with or without giving up. -/
  | healthKilled (pid : Pid) (child : Option Nat) (givingUp : Bool)
  /-- SIGKILL from `kill_zombie`. -/
  | zombieKilled (pid : Pid)
  /-- An odometry message of that odin1_driver instance reached `odin_health_cb`. -/
  | delivered (child : Nat)
  /-- One round of `publish_status`. -/
  | published (statuses : List ProcessStatus)
  deriving DecidableEq, Repr

/-- What becomes of an entry, as the node logs it; its number stands for the name. Times are
readings of the node clock. -/
inductive Note where
  /-- `start_process` has forked, with the start time. -/
  | started (entry : Nat) (time : Int)
  /-- `start_process` could not fork. -/
  | forkFailed (entry : Nat) (error : String) (time : Int)
  /-- The child was reaped after a planned stop. -/
  | stopped (entry : Nat) (status : WaitStatus)
  /-- The child was reaped after it had exited unexpectedly. -/
  | crashed (entry : Nat) (status : WaitStatus) (time : Int)
  /-- `force_kill` has let go of the child. -/
  | forceKilled (entry : Nat)
  | gaveUp (entry : Nat)
  /-- `handle_restarts` starts a crashed entry again. -/
  | restarting (entry : Nat) (time : Int)
  /-- `check_started` takes the backoff of an entry in that state back. -/
  | uptimeReset (entry : Nat) (state : ProcessState) (time : Int)
  /-- A start or restart request takes the backoff back. -/
  | manualReset (entry : Nat)
  /-- A restart of all processes takes every backoff back. -/
  | manualResetAll
  deriving DecidableEq, Repr

/-- What the surroundings do before one interaction, and what they answer. -/
structure Beat where
  /-- Monotonic time that passes. -/
  elapsed : Nat := 0
  /-- By how much the system clock is stepped besides. -/
  jump : Int := 0
  /-- Children that exit. -/
  exits : List (Pid × WaitStatus) := []
  /-- Odometry messages published, by the serial number of the publisher. -/
  published : List Nat := []
  /-- The pid `fork` hands out, or a failure. -/
  fork : Option Pid := none
  /-- `strerror(errno)` of a failing `fork`. -/
  error : String := ""
  /-- Which of several exited children `waitpid` reports first. -/
  reaps : Pid := 0
  /-- The numeric entries of `/proc` with their command lines. -/
  procfs : List (Pid × String) := []
  /-- The topics in the ROS graph. -/
  topics : List String := []
  deriving DecidableEq, Repr

/-- Parameters of the node and of the `supervisor` section of its YAML file. -/
structure Config where
  selfPid : Pid := 1
  gracefulShutdownTimeout : Int := 10 * sec
  initialBackoffSec : Int := sec
  maxBackoffSec : Int := 60 * sec
  minUptimeResetSec : Int := 30 * sec
  odinHealthTimeoutSec : Int := 5 * sec
  odinHealthMaxFails : Int := 5
  odinHealthResetUptimeSec : Int := 60 * sec
  deriving DecidableEq, Repr

/-- Whether the node still takes callbacks. `blocked`: the running callback is
still polling when its script ends. `aborted`: an exception left a callback. -/
inductive Mode where
  | up
  | blocked
  | shutDown
  | aborted
  deriving DecidableEq, Repr

structure World where
  config : Config
  processes : List ManagedProcess
  shuttingDown : Bool := false
  startTime : Time := {}
  odinLastMsgSteady : Int := 0
  odinRunningSteady : Int := 0
  odinHealthArmed : Bool := false
  odinHealthFailCount : Int := 0
  /-- `g_signal_received`. -/
  signalReceived : Bool := false
  /-- The local variable of a running `shutdown_all`. -/
  deadline : Option Time := none
  /-- The node clock (ROS time, which follows the system clock). -/
  ros : Int
  /-- The monotonic clock. -/
  steady : Int
  children : List Child := []
  /-- Number of successful forks so far. -/
  forks : Nat := 0
  /-- Odometry messages published and not yet delivered, oldest first. -/
  odometry : List Nat := []
  script : List Beat := []
  mode : Mode := .up
  response : Option Response := none
  /-- Newest first. -/
  log : List Event := []
  /-- Newest first. -/
  notes : List Note := []
  deriving DecidableEq, Repr

/-- The name the health check and the odometry topic are tied to. -/
def odin : String := "odin1_driver"

/-- A running child exits when the beat says so. -/
def Child.pass (beat : Beat) (child : Child) : Child :=
  match child.status with
  | some _ => child
  | none => { child with status := beat.exits.lookup child.pid }

@[simp] theorem Child.pass_pid (beat : Beat) (child : Child) :
    (child.pass beat).pid = child.pid := by
  unfold Child.pass
  split <;> rfl

@[simp] theorem Child.pass_serial (beat : Beat) (child : Child) :
    (child.pass beat).serial = child.serial := by
  unfold Child.pass
  split <;> rfl

@[simp] theorem Child.pass_killed (beat : Beat) (child : Child) :
    (child.pass beat).killed = child.killed := by
  unfold Child.pass
  split <;> rfl

/-- An exited child stays as it is until it is reaped. -/
theorem Child.pass_of_exited {beat : Beat} {child : Child} {status : WaitStatus}
    (hstatus : child.status = some status) : child.pass beat = child := by
  simp only [pass, hstatus]

namespace World

/-- The beat the next interaction will consume. An exhausted script answers with
surroundings that do nothing. -/
def beat (world : World) : Beat := world.script.headD {}

/-- A live instance of odin1_driver with that serial number. -/
def publishes (world : World) (serial : Nat) : Bool :=
  world.children.any fun child =>
    child.serial == serial && child.owner == odin && child.status.isNone

/-- Let the surroundings act for one beat. -/
def interact (world : World) : World :=
  { world with
    script := world.script.tail
    steady := world.steady + world.beat.elapsed
    ros := world.ros + world.beat.elapsed + world.beat.jump
    children := world.children.map (Child.pass world.beat)
    odometry := world.odometry ++ world.beat.published.filter world.publishes }

/-- The last reading of the node clock. -/
def clock (world : World) : Time := ⟨world.ros, .rosTime⟩

/-- The entry's fields are changed in place. -/
def update (world : World) (i : Nat) (change : ManagedProcess → ManagedProcess) : World :=
  { world with processes := world.processes.modify i change }

def record (world : World) (event : Event) : World :=
  { world with log := event :: world.log }

def note (world : World) (note : Note) : World :=
  { world with notes := note :: world.notes }

/-- An exception leaves the running callback, and with it the node. -/
def abort (world : World) : World := { world with mode := .aborted }

/-- Continue unless the callback has been left or is still polling. -/
def andThen (world : World) (next : World → World) : World :=
  if world.mode = .up then next world else world

/-- Continue with a copy of an entry. -/
def onEntry (world : World) (i : Nat) (body : ManagedProcess → World → World) : World :=
  match world.processes[i]? with
  | none => world
  | some mp => body mp world

theorem onEntry_none {world : World} {i : Nat} (hentry : world.processes[i]? = none)
    (body : ManagedProcess → World → World) : world.onEntry i body = world := by
  simp only [onEntry, hentry]

theorem onEntry_some {world : World} {i : Nat} {mp : ManagedProcess}
    (hentry : world.processes[i]? = some mp) (body : ManagedProcess → World → World) :
    world.onEntry i body = body mp world := by
  simp only [onEntry, hentry]

def indices (world : World) : List Nat := List.range world.processes.length

/-- A `for` loop over entries. -/
def each (world : World) (order : List Nat) (body : Nat → World → World) : World :=
  order.foldl (fun world i => world.andThen (body i)) world

/-- The unreaped child with that pid. -/
def serialOf (world : World) (pid : Pid) : Option Nat :=
  (world.children.find? (·.pid == pid)).map (·.serial)

/-- SIGKILL is sent to a process. -/
def markKilled (world : World) (pid : Pid) : World :=
  { world with children := world.children.map fun child =>
      if child.pid = pid then { child with killed := true } else child }

/-- A reaped child leaves the table. -/
def forget (world : World) (pid : Pid) : World :=
  { world with children := world.children.filter (·.pid ≠ pid) }

/-- The kernel hands out a pid that no unreaped child holds. -/
def fresh (world : World) (pid : Pid) : Prop :=
  0 < pid ∧ pid ≠ world.config.selfPid ∧ ∀ child ∈ world.children, child.pid ≠ pid

instance (world : World) (pid : Pid) : Decidable (world.fresh pid) :=
  inferInstanceAs (Decidable (_ ∧ _ ∧ _))

theorem fresh_interact {world : World} {pid : Pid} (hfresh : world.fresh pid) :
    world.interact.fresh pid := by
  refine ⟨hfresh.1, hfresh.2.1, ?_⟩
  intro child hchild
  obtain ⟨earlier, hearlier, rfl⟩ := List.mem_map.mp hchild
  rw [Child.pass_pid]
  exact hfresh.2.2 earlier hearlier

/-- `waitpid(-1, &status, WNOHANG)` after its interaction: some exited child. -/
def waitpid (world : World) (preferred : Pid) : Option (Child × WaitStatus) :=
  let zombies := world.children.filterMap fun child => child.status.map (child, ·)
  (zombies.find? (·.1.pid == preferred)).or zombies.head?

theorem waitpid_mem {world : World} {preferred : Pid} {child : Child} {status : WaitStatus}
    (hwait : world.waitpid preferred = some (child, status)) :
    child ∈ world.children ∧ child.status = some status := by
  have hzombie : (child, status) ∈
      world.children.filterMap fun child => child.status.map (child, ·) := by
    simp only [waitpid, Option.or_eq_some_iff] at hwait
    rcases hwait with hfind | ⟨_, hhead⟩
    · exact List.mem_of_find?_eq_some hfind
    · exact List.mem_of_head? hhead
  obtain ⟨listed, hlisted, hmap⟩ := List.mem_filterMap.mp hzombie
  obtain ⟨reported, hreported, hpair⟩ := Option.map_eq_some_iff.mp hmap
  cases hpair
  exact ⟨hlisted, hreported⟩

end World

end AcflyRos.Daemon

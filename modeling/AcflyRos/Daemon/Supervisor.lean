import AcflyRos.Daemon.World
import Mathlib.Data.List.Infix

/-! # The callbacks of the supervisor

Each function of `AcflyDaemon` that takes part in child tracking, timing or the
health check, under its own name. A clock reading is the node clock right after
an interaction; the fields a branch assigns are assigned together once the
readings it stores have been taken.
-/

namespace AcflyRos.Daemon

namespace World

/-! ## Starting and stopping one process -/

def findProcess (world : World) (name : String) : Option Nat :=
  world.processes.findIdx? (·.name == name)

/-- Every dependency names a configured process that is RUNNING. -/
def dependenciesRunning (world : World) (mp : ManagedProcess) : Bool :=
  mp.dependencies.all fun dep =>
    match world.findProcess dep with
    | none => false
    | some i => (world.processes[i]?).any (·.state == .running)

/-- All that the dependency check reads of the table. -/
def runStates (world : World) : List (String × Bool) :=
  world.processes.map fun mp => (mp.name, mp.state == .running)

theorem dependenciesRunning_eq (world : World) (mp : ManagedProcess) :
    world.dependenciesRunning mp =
      mp.dependencies.all fun dep => (world.runStates.find? (·.1 == dep)).any (·.2) := by
  unfold dependenciesRunning
  congr 1
  funext dep
  rw [findProcess, runStates, List.find?_map]
  cases hindex : world.processes.findIdx? (·.name == dep) with
  | none =>
      have hnone : world.processes.find? (·.name == dep) = none := by
        rw [List.findIdx?_eq_none_iff] at hindex
        rw [List.find?_eq_none]
        intro mp hmp
        simp [hindex mp hmp]
      simp only [Function.comp_def, hnone, Option.map_none, Option.any_none]
  | some i =>
      obtain ⟨hlt, hname, hfirst⟩ := List.findIdx?_eq_some_iff_getElem.mp hindex
      have hsome : world.processes.find? (·.name == dep) = some world.processes[i] := by
        rw [List.find?_eq_some_iff_getElem]
        exact ⟨hname, i, hlt, rfl, fun j hj => by simpa using hfirst j hj⟩
      simp only [Function.comp_def, hsome, List.getElem?_eq_getElem hlt, Option.map_some,
        Option.any_some]

theorem dependenciesRunning_congr {world other : World} (mp : ManagedProcess)
    (hstates : other.runStates = world.runStates) :
    other.dependenciesRunning mp = world.dependenciesRunning mp := by
  rw [dependenciesRunning_eq, dependenciesRunning_eq, hstates]

def topicsReady (topics : List String) (mp : ManagedProcess) : Bool :=
  mp.waitForTopics.all (topics.contains ·)

/-- The tests `kill_zombie` makes on one entry of `/proc`. -/
def isZombieOf (world : World) (pattern : String) (pid : Pid) (cmdline : String) : Bool :=
  decide (0 < pid) && pid != world.config.selfPid &&
    world.processes.all (fun mp => mp.pid != pid) &&
    cmdline != "" && decide (pattern.toList <:+: cmdline.toList)

def killZombie (mp : ManagedProcess) (world : World) : World :=
  match mp.args.getLast? with
  | none => world
  | some pattern =>
      world.beat.procfs.foldl (fun world (pid, cmdline) =>
        if world.isZombieOf pattern pid cmdline then
          (world.markKilled pid).record (.zombieKilled pid)
        else world) world.interact

/-- `start_process` once `fork` has failed. -/
def forkFailed (i : Nat) (error : String) (world : World) : World :=
  (world.update i fun mp =>
    { mp with
      state := .restarting
      crashTime := world.clock
      exitReason := "fork_failed:" ++ error }).note (.forkFailed i error world.ros)

/-- `start_process` in the parent once `fork` has returned a pid. A restarted
odin1_driver is disarmed, but keeps its count of health failures. -/
def forkSucceeded (i : Nat) (owner : String) (pid : Pid) (startTime : Time)
    (world : World) : World :=
  let world := world.record
    (.forked i world.forks pid (world.processes.map fun mp => (mp.name, mp.state)))
  let world := { world with
    children := world.children ++ [(⟨pid, world.forks, owner, none, false⟩ : Child)]
    forks := world.forks + 1 }
  let world := (world.update i fun mp =>
    { mp with pid, state := .starting, startTime, exitCode := 0, exitReason := "" }).note
      (.started i startTime.nanoseconds)
  if owner = odin then
    { world with odinHealthArmed := false, odinRunningSteady := world.steady }
  else world

theorem forkSucceeded_processes (world : World) (i : Nat) (owner : String) (pid : Pid)
    (startTime : Time) :
    (world.forkSucceeded i owner pid startTime).processes = world.processes.modify i fun mp =>
      { mp with pid, state := .starting, startTime, exitCode := 0, exitReason := "" } := by
  unfold forkSucceeded
  dsimp only
  split <;> rfl

theorem forkSucceeded_children (world : World) (i : Nat) (owner : String) (pid : Pid)
    (startTime : Time) :
    (world.forkSucceeded i owner pid startTime).children =
      world.children ++ [⟨pid, world.forks, owner, none, false⟩] := by
  unfold forkSucceeded
  dsimp only
  split <;> rfl

/-- Only a fork of odin1_driver disarms the health check. -/
theorem forkSucceeded_armed (world : World) (i : Nat) (owner : String) (pid : Pid)
    (startTime : Time)
    (harmed : (world.forkSucceeded i owner pid startTime).odinHealthArmed = true) :
    owner ≠ odin ∧ world.odinHealthArmed = true := by
  unfold forkSucceeded at harmed
  dsimp only at harmed
  split at harmed
  next => cases harmed
  next howner => exact ⟨howner, harmed⟩

theorem forkSucceeded_log (world : World) (i : Nat) (owner : String) (pid : Pid)
    (startTime : Time) :
    (world.forkSucceeded i owner pid startTime).log =
      .forked i world.forks pid (world.processes.map fun mp => (mp.name, mp.state)) ::
        world.log := by
  unfold forkSucceeded
  dsimp only
  split <;> rfl

theorem forkSucceeded_notes (world : World) (i : Nat) (owner : String) (pid : Pid)
    (startTime : Time) :
    (world.forkSucceeded i owner pid startTime).notes =
      .started i startTime.nanoseconds :: world.notes := by
  unfold forkSucceeded
  dsimp only
  split <;> rfl

section ForkSucceeded

variable (world : World) (i : Nat) (owner : String) (pid : Pid) (startTime : Time)

@[simp] theorem forkSucceeded_config :
    (world.forkSucceeded i owner pid startTime).config = world.config := by
  unfold forkSucceeded
  dsimp only
  split <;> rfl

@[simp] theorem forkSucceeded_forks :
    (world.forkSucceeded i owner pid startTime).forks = world.forks + 1 := by
  unfold forkSucceeded
  dsimp only
  split <;> rfl

@[simp] theorem forkSucceeded_ros :
    (world.forkSucceeded i owner pid startTime).ros = world.ros := by
  unfold forkSucceeded
  dsimp only
  split <;> rfl

@[simp] theorem forkSucceeded_script :
    (world.forkSucceeded i owner pid startTime).script = world.script := by
  unfold forkSucceeded
  dsimp only
  split <;> rfl

@[simp] theorem forkSucceeded_deadline :
    (world.forkSucceeded i owner pid startTime).deadline = world.deadline := by
  unfold forkSucceeded
  dsimp only
  split <;> rfl

@[simp] theorem forkSucceeded_mode :
    (world.forkSucceeded i owner pid startTime).mode = world.mode := by
  unfold forkSucceeded
  dsimp only
  split <;> rfl

@[simp] theorem forkSucceeded_signalReceived :
    (world.forkSucceeded i owner pid startTime).signalReceived = world.signalReceived := by
  unfold forkSucceeded
  dsimp only
  split <;> rfl

@[simp] theorem forkSucceeded_startTime :
    (world.forkSucceeded i owner pid startTime).startTime = world.startTime := by
  unfold forkSucceeded
  dsimp only
  split <;> rfl

@[simp] theorem forkSucceeded_shuttingDown :
    (world.forkSucceeded i owner pid startTime).shuttingDown = world.shuttingDown := by
  unfold forkSucceeded
  dsimp only
  split <;> rfl

end ForkSucceeded

def startProcess (i : Nat) (world : World) : World :=
  world.onEntry i fun mp world =>
    let world := killZombie mp world
    let answer := world.beat
    let world := world.interact
    match answer.fork with
    | none => forkFailed i answer.error world.interact
    | some pid =>
        if world.fresh pid then
          let world := world.interact
          let startTime := world.clock
          let world := if mp.name = odin then world.interact else world
          forkSucceeded i mp.name pid startTime world
        else forkFailed i answer.error world.interact

/-- `request_stop` for a live child: the request is recorded, then SIGINT sent. -/
def stopRequested (i : Nat) (pid : Pid) (world : World) : World :=
  (world.update i fun mp =>
    { mp with stopping := true, stopRequestTime := world.clock, state := .stopping }).record
      (.stopRequested pid (world.serialOf pid) world.ros)

def requestStop (i : Nat) (world : World) : World :=
  world.onEntry i fun mp world =>
    if mp.pid ≤ 0 then world else stopRequested i mp.pid world.interact

/-- `force_kill` for a live child: SIGKILL, and the entry lets go of the pid. -/
def forceKilled (i : Nat) (mp : ManagedProcess) (world : World) : World :=
  (((world.record (.forceKilled mp.pid (world.serialOf mp.pid) mp.shutdownTimeoutSec
    world.ros)).markKilled mp.pid).update i fun mp =>
      { mp with stopping := false, pid := -1, state := .stopped }).note (.forceKilled i)

def forceKill (i : Nat) (world : World) : World :=
  world.onEntry i fun mp world =>
    if mp.pid ≤ 0 then world else forceKilled i mp world

/-! ## The steps of the timer -/

/-- A planned stop ends in STOPPED. -/
def reapedStopped (i : Nat) (child : Child) (status : WaitStatus) (world : World) : World :=
  ((world.forget child.pid).update i fun mp =>
    { mp with
      pid := -1
      exitCode := status.exitCode
      exitReason := status.exitReason
      stopping := false
      state := .stopped }).note (.stopped i status)

/-- An unexpected exit ends in RESTARTING and starts the backoff. -/
def reapedCrashed (i : Nat) (child : Child) (status : WaitStatus) (world : World) : World :=
  ((world.forget child.pid).update i fun mp =>
    { mp with
      pid := -1
      exitCode := status.exitCode
      exitReason := status.exitReason
      state := .restarting
      crashTime := world.clock }).note (.crashed i status world.ros)

/-- The body of the loop of `reap_children` for a child that `waitpid` reported. -/
def reapOne (child : Child) (status : WaitStatus) (world : World) : World :=
  match world.processes.findIdx? (·.pid == child.pid) with
  | none => world.forget child.pid
  | some i => world.onEntry i fun mp world =>
      if mp.stopping then reapedStopped i child status world
      else reapedCrashed i child status world.interact

/-- Every successful `waitpid` removes a child, so the number of children bounds
the loop. -/
def reapLoop : Nat → World → World
  | 0, world => world
  | fuel + 1, world =>
      let preferred := world.beat.reaps
      let world := world.interact
      match world.waitpid preferred with
      | none => world
      | some (child, status) => reapLoop fuel (reapOne child status world)

def reapChildren (world : World) : World :=
  reapLoop (world.children.length + 1) world

def checkStopTimeouts (world : World) : World :=
  let world := world.interact
  let nowT := world.clock
  world.each world.indices fun i world => world.onEntry i fun mp world =>
    if mp.stopping ∧ 0 < mp.pid then
      match nowT.sub? mp.stopRequestTime with
      | none => world.abort
      | some elapsed => if mp.shutdownTimeoutSec < elapsed then forceKill i world else world
    else world

def countRestart (i : Nat) (world : World) : World :=
  (world.update i fun mp => { mp with restartCount := mp.restartCount + 1 }).note
    (.restarting i world.ros)

/-- `handle_restarts` for an entry whose backoff has expired. -/
def restartEntry (i : Nat) (world : World) : World :=
  let world := startProcess i (countRestart i world)
  world.update i fun mp => { mp with
    currentBackoffSec := min (mp.currentBackoffSec * 2) world.config.maxBackoffSec }

def handleRestarts (world : World) : World :=
  let world := world.interact
  let nowT := world.clock
  world.each world.indices fun i world => world.onEntry i fun mp world =>
    if mp.state ≠ .restarting then world
    else if mp.autoRestart = false then world
    else match nowT.sub? mp.crashTime with
    | none => world.abort
    | some elapsed =>
        if mp.currentBackoffSec ≤ elapsed then restartEntry i world else world

/-- `kill(pid, 0)` finds the child as long as it has not been reaped. -/
def exists? (world : World) (pid : Pid) : Bool :=
  world.children.any (·.pid == pid)

def markRunning (world : World) : World :=
  world.each world.indices fun i world => world.onEntry i fun mp world =>
    if mp.state ≠ .starting then world
    else if mp.pid ≤ 0 then world
    else if world.exists? mp.pid then world.update i fun mp => { mp with state := .running }
    else world

def resetBackoffs (world : World) : World :=
  let world := world.interact
  let nowT := world.clock
  world.each world.indices fun i world => world.onEntry i fun mp world =>
    if mp.state ≠ .running then world
    else if mp.currentBackoffSec ≤ world.config.initialBackoffSec then world
    else match nowT.sub? mp.startTime with
    | none => world.abort
    | some uptime =>
        if world.config.minUptimeResetSec ≤ uptime then
          (world.update i fun mp =>
            { mp with currentBackoffSec := world.config.initialBackoffSec }).note
              (.uptimeReset i mp.state world.ros)
        else world

def checkStarted (world : World) : World :=
  (markRunning world).andThen resetBackoffs

/-- An odometry message arms the health check, whichever instance sent it. -/
def odinHealthCb (serial : Nat) (world : World) : World :=
  let world := world.interact
  { world with odinLastMsgSteady := world.steady, odinHealthArmed := true }.record
    (.delivered serial)

/-- The branch of `check_odin_health` that stops restarting odin1_driver. -/
def giveUp (i : Nat) (pid : Pid) (world : World) : World :=
  let world := (world.update i fun mp =>
    { mp with
      autoRestart := false
      stopping := true
      exitReason := "health_check_giveup:data_stall" }).note (.gaveUp i)
  let world := (world.record (.healthKilled pid (world.serialOf pid) true)).markKilled pid
  { world with odinHealthArmed := false }

/-- The branch of `check_odin_health` that leaves the restart to the backoff path. -/
def healthKill (pid : Pid) (world : World) : World :=
  let world := { world with odinHealthFailCount := world.odinHealthFailCount + 1 }
  let world := (world.record (.healthKilled pid (world.serialOf pid) false)).markKilled pid
  { world with odinHealthArmed := false }

def checkOdinHealth (world : World) : World :=
  match world.findProcess odin with
  | none => world
  | some i => world.onEntry i fun mp world =>
      if mp.state ≠ .running then world
      else if world.odinHealthArmed = false then world
      else if mp.pid ≤ 0 then world
      else
        let world := world.interact
        let nowSteady := world.steady
        if nowSteady - world.odinLastMsgSteady ≤ world.config.odinHealthTimeoutSec then
          if 0 < world.odinHealthFailCount ∧
              world.config.odinHealthResetUptimeSec ≤ nowSteady - world.odinRunningSteady then
            { world with odinHealthFailCount := 0 }
          else world
        else if world.config.odinHealthMaxFails ≤ world.odinHealthFailCount then
          giveUp i mp.pid world
        else healthKill mp.pid world

/-- `get_topic_names_and_types` is asked only when some topic is required. -/
def handlePending (world : World) : World :=
  world.each world.indices fun i world => world.onEntry i fun mp world =>
    if mp.state ≠ .pending then world
    else if world.dependenciesRunning mp = false then world
    else if mp.waitForTopics = [] then startProcess i world
    else
      let topics := world.beat.topics
      let world := world.interact
      if topicsReady topics mp then startProcess i world else world

def supervisorStateStr (world : World) : String :=
  let allRunning := world.processes.all fun mp => mp.state == .running || mp.state == .stopped
  let anyPending := world.processes.any fun mp => mp.state == .pending || mp.state == .starting
  let anyStopping := world.processes.any (·.state == .stopping)
  if world.shuttingDown || anyStopping then "STOPPING"
  else if anyPending && !allRunning then "STARTING"
  else if allRunning then "RUNNING"
  else "DEGRADED"

/-- The status message of one entry; reading its uptime may throw. -/
def processStatus (mp : ManagedProcess) (world : World) : Option ProcessStatus :=
  let status (uptimeSec : Int) : ProcessStatus :=
    { name := mp.name, state := stateToStr mp.state, pid := mp.pid,
      restartCount := mp.restartCount, uptimeSec,
      exitCode := mp.exitCode, exitReason := mp.exitReason }
  if mp.state = .running then (world.clock.sub? mp.startTime).map status else some (status 0)

/-- The status messages of the entries, in order; the clock is read for those
that are RUNNING. -/
def collectStatuses : List ManagedProcess → List ProcessStatus → World →
    Option (List ProcessStatus) × World
  | [], done, world => (some done, world)
  | mp :: rest, done, world =>
      let world := if mp.state = .running then world.interact else world
      match processStatus mp world with
      | none => (none, world.abort)
      | some status => collectStatuses rest (done ++ [status]) world

def publishStatus (world : World) : World :=
  let world := world.interact
  match world.clock.sub? world.startTime with
  | none => world.abort
  | some uptimeSec =>
      let own : ProcessStatus :=
        { name := "__supervisor__", state := world.supervisorStateStr,
          pid := world.config.selfPid, restartCount := 0, uptimeSec, exitCode := 0,
          exitReason := "" }
      match collectStatuses world.processes [own] world with
      | (none, world) => world
      | (some statuses, world) => world.record (.published statuses)

/-! ## Shutting everything down -/

def allStopped (world : World) : Bool :=
  world.processes.all fun mp => mp.state == .stopped || mp.state == .pending

/-- The polling loop of `shutdown_all`. Once the script is used up no further
iteration can make progress, so the length of the script bounds the loop. -/
def shutdownPoll : Nat → World → World
  | 0, world => { world with mode := .blocked }
  | fuel + 1, world =>
      let world := world.interact
      match world.deadline with
      | none => world
      | some deadline =>
          if world.ros < deadline.nanoseconds then
            ((reapChildren world).andThen checkStopTimeouts).andThen fun world =>
              if world.allStopped then world else shutdownPoll fuel world.interact
          else world

/-- The entries that outlived the deadline are killed. -/
def killRemaining (world : World) : World :=
  world.each world.indices fun i world => world.onEntry i fun mp world =>
    if mp.state ≠ .stopped ∧ mp.state ≠ .pending then forceKill i world else world

/-- SIGINT in reverse order of the YAML list. -/
def requestStopAll (world : World) : World :=
  world.each world.indices.reverse fun i world => world.onEntry i fun mp world =>
    if mp.state = .starting ∨ mp.state = .running ∨ mp.state = .restarting then
      requestStop i world
    else world

def shutdownAll (world : World) : World :=
  if world.shuttingDown then world
  else
    let world := { world with shuttingDown := true }
    let world := requestStopAll world
    let world := world.interact
    let world := { world with
      deadline := some ⟨world.ros + world.config.gracefulShutdownTimeout, .rosTime⟩ }
    let world := shutdownPoll (world.script.length + 1) world
    (world.andThen killRemaining).andThen fun world => { world with deadline := none }

/-! ## Callbacks -/

def onTimer (world : World) : World :=
  if world.signalReceived then
    (shutdownAll world).andThen fun world => { world with mode := .shutDown }
  else
    (((((reapChildren world).andThen checkStopTimeouts).andThen checkStarted).andThen
      checkOdinHealth).andThen handleRestarts).andThen fun world =>
        (handlePending world).andThen publishStatus

def respond (world : World) (success : Bool) (message : String) : World :=
  { world with response := some ⟨success, message, []⟩ }

/-- What a manual start or restart resets before `start_process`. -/
def resetForStart (i : Nat) (name : String) (world : World) : World :=
  let world := (world.update i fun mp =>
    { mp with state := .pending, currentBackoffSec := world.config.initialBackoffSec }).note
      (.manualReset i)
  if name = odin then
    { world with odinHealthFailCount := 0 }.update i fun mp => { mp with autoRestart := true }
  else world

theorem resetForStart_processes (world : World) (i : Nat) (name : String) :
    (world.resetForStart i name).processes = world.processes.modify i fun mp =>
      { mp with
        state := .pending
        currentBackoffSec := world.config.initialBackoffSec
        autoRestart := if name = odin then true else mp.autoRestart } := by
  unfold resetForStart
  dsimp only
  split
  · exact List.modify_modify_eq _ _ i world.processes
  · rfl

section ResetForStart

variable (world : World) (i : Nat) (name : String)

@[simp] theorem resetForStart_config : (world.resetForStart i name).config = world.config := by
  unfold resetForStart
  split <;> rfl

@[simp] theorem resetForStart_forks : (world.resetForStart i name).forks = world.forks := by
  unfold resetForStart
  split <;> rfl

@[simp] theorem resetForStart_ros : (world.resetForStart i name).ros = world.ros := by
  unfold resetForStart
  split <;> rfl

@[simp] theorem resetForStart_script : (world.resetForStart i name).script = world.script := by
  unfold resetForStart
  split <;> rfl

@[simp] theorem resetForStart_deadline :
    (world.resetForStart i name).deadline = world.deadline := by
  unfold resetForStart
  split <;> rfl

@[simp] theorem resetForStart_shuttingDown :
    (world.resetForStart i name).shuttingDown = world.shuttingDown := by
  unfold resetForStart
  split <;> rfl

@[simp] theorem resetForStart_children :
    (world.resetForStart i name).children = world.children := by
  unfold resetForStart
  split <;> rfl

@[simp] theorem resetForStart_armed :
    (world.resetForStart i name).odinHealthArmed = world.odinHealthArmed := by
  unfold resetForStart
  split <;> rfl

@[simp] theorem resetForStart_notes :
    (world.resetForStart i name).notes = .manualReset i :: world.notes := by
  unfold resetForStart
  split <;> rfl

@[simp] theorem resetForStart_log : (world.resetForStart i name).log = world.log := by
  unfold resetForStart
  split <;> rfl

end ResetForStart

/-- The outcome a start or restart service reports. -/
def respondStarted (i : Nat) (success failure : String) (world : World) : World :=
  world.onEntry i fun mp world =>
    if mp.state = .starting then world.respond true success else world.respond false failure

def handleStart (name : String) (world : World) : World :=
  if name = "" then world.respond false "Process name required"
  else match world.findProcess name with
  | none => world.respond false ("Unknown process: " ++ name)
  | some i => world.onEntry i fun mp world =>
      if mp.state = .running ∨ mp.state = .starting then
        world.respond false (name ++ " is already running")
      else
        (startProcess i (resetForStart i name world)).andThen
          (respondStarted i (name ++ " starting") ("Failed to start " ++ name))

def handleStop (name : String) (world : World) : World :=
  if name = "" then
    (shutdownAll world).andThen fun world =>
      { world with shuttingDown := false }.respond true "All processes shutting down"
  else match world.findProcess name with
  | none => world.respond false ("Unknown process: " ++ name)
  | some i => world.onEntry i fun mp world =>
      if mp.state ≠ .running ∧ mp.state ≠ .starting then
        world.respond false (name ++ " is not running")
      else (requestStop i world).respond true (name ++ " stopping")

/-- The wait of `handle_restart`: poll until the entry has left STOPPING. -/
def waitStopped (i : Nat) : Nat → World → World
  | 0, world => { world with mode := .blocked }
  | fuel + 1, world => world.onEntry i fun mp world =>
      if mp.state = .stopping then
        ((reapChildren world.interact).andThen checkStopTimeouts).andThen (waitStopped i fuel)
      else world

/-- After `shutdown_all`, every entry goes back to PENDING. -/
def resetEntries (world : World) : World :=
  let world : World := { world with
    processes := world.processes.map fun mp =>
      { mp with state := .pending, currentBackoffSec := world.config.initialBackoffSec }
    odinHealthFailCount := 0 }
  world.note .manualResetAll

def resetAll (world : World) : World :=
  let world := resetEntries world
  match world.findProcess odin with
  | none => world
  | some i => world.update i fun mp => { mp with autoRestart := true }

def handleRestart (name : String) (world : World) : World :=
  if name = "" then
    (shutdownAll world).andThen fun world =>
      (resetAll { world with shuttingDown := false }).respond true "All processes restarting"
  else match world.findProcess name with
  | none => world.respond false ("Unknown process: " ++ name)
  | some i => world.onEntry i fun mp world =>
      let world :=
        if mp.state = .running ∨ mp.state = .starting then requestStop i world else world
      (waitStopped i (world.script.length + 1) world).andThen fun world =>
        (startProcess i (resetForStart i name world)).andThen
          (respondStarted i (name ++ " restarting") ("Failed to restart " ++ name))

def handleShutdown (world : World) : World :=
  { world.respond true "Shutting down supervisor and all processes" with
    signalReceived := true }

def handleGetStatus (name : String) (world : World) : World :=
  if name = "" then
    match collectStatuses world.processes [] world with
    | (none, world) => world
    | (some statuses, world) =>
        { world with response := some ⟨true, "Returning all process statuses", statuses⟩ }
  else match world.findProcess name with
  | none => world.respond false ("Unknown process: " ++ name)
  | some i => world.onEntry i fun mp world =>
      match collectStatuses [mp] [] world with
      | (none, world) => world
      | (some statuses, world) =>
          { world with response := some ⟨true, "", statuses⟩ }

end World

/-! ## Runs -/

/-- What makes the node act. `idle` is time during which no callback runs. -/
inductive Request where
  | timer
  | odometry
  | start (name : String)
  | stop (name : String)
  | restart (name : String)
  | shutdown
  | getStatus (name : String)
  | signal
  | idle
  deriving DecidableEq, Repr

/-- One callback together with what the surroundings do while it runs. -/
structure Label where
  request : Request
  script : List Beat := []
  deriving DecidableEq, Repr

/-- The oldest undelivered odometry message reaches its callback. -/
def deliver (world : World) : World :=
  match world.odometry with
  | [] => world
  | serial :: rest => World.odinHealthCb serial { world with odometry := rest }

def dispatch (request : Request) (world : World) : World :=
  match request with
  | .timer => World.onTimer world
  | .odometry => deliver world
  | .start name => World.handleStart name world
  | .stop name => World.handleStop name world
  | .restart name => World.handleRestart name world
  | .shutdown => World.handleShutdown world
  | .getStatus name => World.handleGetStatus name world
  | .signal => { world with signalReceived := true }
  | .idle => world.interact

/-- Callbacks run one at a time and only while the node is up. -/
def step (world : World) (label : Label) : World :=
  if world.mode = .up then
    dispatch label.request { world with script := label.script, response := none }
  else world

/-- An entry of the `processes` sequence of the YAML file. -/
structure ProcessNode where
  name : String
  command : String
  args : List String := []
  autoRestart : Bool := true
  shutdownTimeoutSec : Int := 10 * sec
  dependencies : List String := []
  waitForTopics : List String := []
  deriving DecidableEq, Repr

def loadProcess (config : Config) (node : ProcessNode) : ManagedProcess :=
  { name := node.name
    command := node.command
    args := node.args
    autoRestart := node.autoRestart
    shutdownTimeoutSec := node.shutdownTimeoutSec
    dependencies := node.dependencies
    waitForTopics := node.waitForTopics
    currentBackoffSec := config.initialBackoffSec }

/-- The node after its constructor, at the given clock readings. -/
def initial (config : Config) (nodes : List ProcessNode) (ros steady : Int) : World :=
  { config
    processes := nodes.map (loadProcess config)
    startTime := ⟨ros, .rosTime⟩
    ros
    steady }

end AcflyRos.Daemon

import AcflyRos.Daemon.Supervisor

/-! # What a callback can do

The callbacks of the supervisor are decomposed into atomic actions, each with the
guard under which the code performs it. Every invariant of the supervisor is
proved once for each action. The kind of an action tells apart those that only
some callbacks take, or that bend an invariant; everything else is `routine`.
-/

namespace AcflyRos.Daemon

open AcflyRos.Transition

inductive Kind where
  | routine
  /-- The timer starts an entry whose dependencies are RUNNING, or finds it RUNNING. -/
  | advance
  /-- A service request resets or starts the entry. -/
  | manual (entry : Nat)
  /-- A start request resets an entry whose child has been asked to stop. -/
  | displace (entry : Nat)
  /-- A restart of all processes resets every entry. -/
  | manualAll
  /-- A backoff restart of an entry with a dependency that is not RUNNING. -/
  | ungated (entry : Nat)
  /-- A backoff restart is counted, and the next backoff lengthened. -/
  | backoff
  /-- The health check gives up on odin1_driver. -/
  | giveUp
  /-- The health check is armed by a message that the current instance did not send. -/
  | stale
  /-- The bookkeeping of `shutdown_all`. -/
  | stopAll
  /-- A callback begins, and the surroundings' script for it is fixed. -/
  | enter (script : List Beat)
  deriving DecidableEq, Repr

namespace World

/-- When `start_process` is reached, by kind of the action. -/
def SpawnGuard (world : World) (mp : ManagedProcess) : Kind → Prop
  | .advance =>
      world.dependenciesRunning mp = true ∧
        (mp.state = .pending ∨ mp.state = .restarting ∧ mp.autoRestart = true)
  | .ungated _ =>
      world.dependenciesRunning mp = false ∧ mp.state = .restarting ∧ mp.autoRestart = true
  | .manual _ => mp.state = .pending
  | _ => False

/-- When `force_kill` is reached: the stop request timed out, or the deadline of
`shutdown_all` passed. -/
def KillGuard (world : World) (mp : ManagedProcess) : Prop :=
  (mp.stopping = true ∧ ∃ elapsed, world.clock.sub? mp.stopRequestTime = some elapsed ∧
    mp.shutdownTimeoutSec < elapsed) ∨
  (mp.state ≠ .stopped ∧ mp.state ≠ .pending ∧
    ∃ deadline, world.deadline = some deadline ∧ deadline.nanoseconds ≤ world.ros)

/-- The message was not sent by the instance that odin1_driver's entry tracks. -/
def StaleFor (world : World) (serial : Nat) : Prop :=
  ∃ i mp, world.findProcess odin = some i ∧ world.processes[i]? = some mp ∧
    0 < mp.pid ∧ world.serialOf mp.pid ≠ some serial

/-- `odin_health_cb` after it has read the clock. -/
def armed (serial : Nat) (world : World) : World :=
  { world with odinLastMsgSteady := world.steady, odinHealthArmed := true }.record
    (.delivered serial)

end World

/-- One atomic action of the supervisor or of its surroundings. -/
inductive Act : Kind → World → World → Prop where
  | env (world : World) : Act .routine world world.interact
  | enter (world : World) (script : List Beat) :
      Act (.enter script) world { world with script, response := none }
  | control (world : World) (mode : Mode) (response : Option Response) (signalReceived : Bool) :
      Act .routine world { world with mode, response, signalReceived }
  | shuttingDown (world : World) (value : Bool) :
      Act .stopAll world { world with shuttingDown := value }
  | setDeadline (world : World)
      (hasked : ∀ mp ∈ world.processes, mp.state ≠ .starting ∧ mp.state ≠ .running) :
      Act .stopAll world { world with
        deadline := some ⟨world.ros + world.config.gracefulShutdownTimeout, .rosTime⟩ }
  | clearDeadline (world : World) : Act .stopAll world { world with deadline := none }
  | publish (world : World) (statuses : List ProcessStatus) :
      Act .routine world (world.record (.published statuses))
  | zombieKill (world : World) (pid : Pid) (hforeign : ∀ mp ∈ world.processes, mp.pid ≠ pid) :
      Act .routine world ((world.markKilled pid).record (.zombieKilled pid))
  | fork (world : World) (kind : Kind) (i : Nat) (mp : ManagedProcess) (pid : Pid)
      (startTime : Time) (hentry : world.processes[i]? = some mp) (hfresh : world.fresh pid)
      (hguard : world.SpawnGuard mp kind) (hidle : world.deadline = none)
      (hclock : startTime.clockType = .rosTime) :
      Act kind world (world.forkSucceeded i mp.name pid startTime)
  | forkFail (world : World) (kind : Kind) (i : Nat) (mp : ManagedProcess) (error : String)
      (hentry : world.processes[i]? = some mp) (hguard : world.SpawnGuard mp kind) :
      Act kind world (world.forkFailed i error)
  | reset (world : World) (i : Nat) (mp : ManagedProcess)
      (hentry : world.processes[i]? = some mp)
      (hstate : mp.state ≠ .running ∧ mp.state ≠ .starting) :
      Act (if mp.state = .stopping then .displace i else .manual i) world
        (world.resetForStart i mp.name)
  | resetEntries (world : World)
      (hstate : ∀ mp ∈ world.processes,
        mp.state = .stopped ∨ mp.state = .pending ∨ mp.state = .restarting ∧ mp.pid ≤ 0) :
      Act .manualAll world world.resetEntries
  | permitRestart (world : World) (i : Nat) (hodin : world.findProcess odin = some i) :
      Act .manualAll world (world.update i fun mp => { mp with autoRestart := true })
  | requestStop (world : World) (i : Nat) (mp : ManagedProcess)
      (hentry : world.processes[i]? = some mp) (hpid : 0 < mp.pid)
      (hidle : world.deadline = none) :
      Act .routine world (world.stopRequested i mp.pid)
  | forceKill (world : World) (i : Nat) (mp : ManagedProcess)
      (hentry : world.processes[i]? = some mp) (hpid : 0 < mp.pid)
      (hguard : world.KillGuard mp) :
      Act .routine world (world.forceKilled i mp)
  | reapUnmanaged (world : World) (child : Child) (hchild : child ∈ world.children)
      (hforeign : ∀ mp ∈ world.processes, mp.pid ≠ child.pid) :
      Act .routine world (world.forget child.pid)
  | reapStopped (world : World) (i : Nat) (mp : ManagedProcess) (child : Child)
      (status : WaitStatus) (hentry : world.processes[i]? = some mp)
      (hpid : mp.pid = child.pid) (hchild : child ∈ world.children)
      (hstatus : child.status = some status) (hstopping : mp.stopping = true) :
      Act .routine world (world.reapedStopped i child status)
  | reapCrashed (world : World) (i : Nat) (mp : ManagedProcess) (child : Child)
      (status : WaitStatus) (hentry : world.processes[i]? = some mp)
      (hpid : mp.pid = child.pid) (hchild : child ∈ world.children)
      (hstatus : child.status = some status) (hstopping : mp.stopping = false) :
      Act .routine world (world.reapedCrashed i child status)
  | markRunning (world : World) (i : Nat) (mp : ManagedProcess)
      (hentry : world.processes[i]? = some mp) (hstate : mp.state = .starting) :
      Act .advance world (world.update i fun mp => { mp with state := .running })
  | resetBackoff (world : World) (i : Nat) (mp : ManagedProcess)
      (hentry : world.processes[i]? = some mp) (hstate : mp.state = .running)
      (huptime : ∃ uptime, world.clock.sub? mp.startTime = some uptime ∧
        world.config.minUptimeResetSec ≤ uptime) :
      Act .advance world ((world.update i fun mp =>
        { mp with currentBackoffSec := world.config.initialBackoffSec }).note
          (.uptimeReset i mp.state world.ros))
  | countRestart (world : World) (i : Nat) :
      Act .backoff world (world.countRestart i)
  | growBackoff (world : World) (i : Nat) :
      Act .backoff world (world.update i fun mp => { mp with
        currentBackoffSec := min (mp.currentBackoffSec * 2) world.config.maxBackoffSec })
  | takeMessage (world : World) (rest : List Nat) :
      Act .routine world { world with odometry := rest }
  | arm (world : World) (serial : Nat) (hcurrent : ¬ world.StaleFor serial) :
      Act .routine world (world.armed serial)
  | armStale (world : World) (serial : Nat) (hstale : world.StaleFor serial) :
      Act .stale world (world.armed serial)
  | forgive (world : World)
      (hflow : world.steady - world.odinLastMsgSteady ≤ world.config.odinHealthTimeoutSec)
      (huptime : world.config.odinHealthResetUptimeSec ≤
        world.steady - world.odinRunningSteady) :
      Act .routine world { world with odinHealthFailCount := 0 }
  | giveUp (world : World) (i : Nat) (mp : ManagedProcess)
      (hodin : world.findProcess odin = some i) (hentry : world.processes[i]? = some mp)
      (hstate : mp.state = .running) (harmed : world.odinHealthArmed = true)
      (hpid : 0 < mp.pid) (hlimit : world.config.odinHealthMaxFails ≤ world.odinHealthFailCount) :
      Act .giveUp world (world.giveUp i mp.pid)
  | healthKill (world : World) (i : Nat) (mp : ManagedProcess)
      (hodin : world.findProcess odin = some i) (hentry : world.processes[i]? = some mp)
      (hstate : mp.state = .running) (harmed : world.odinHealthArmed = true)
      (hpid : 0 < mp.pid) (hlimit : world.odinHealthFailCount < world.config.odinHealthMaxFails) :
      Act .routine world (world.healthKill mp.pid)

end AcflyRos.Daemon

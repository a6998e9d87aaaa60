import AcflyRos.Daemon.Steps

/-! # Two supervisors whose clocks differ by an offset

The node clock follows the system clock, which timesync steps. Two states are alike
when they agree in everything but recorded times, and differ by one offset in those
recorded times that a time-out still refers to. Whatever the supervisor does to
alike states leaves them alike, as long as both clocks go on alike.
-/

namespace AcflyRos.Daemon

open AcflyRos.Transition

/-! ## What a run does, apart from the time -/

def Time.untimed (time : Time) : Time := { time with nanoseconds := 0 }

/-- The reading of a clock that is ahead by a constant. -/
def Time.shift (offset : Int) (time : Time) : Time :=
  { time with nanoseconds := time.nanoseconds + offset }

theorem Time.sub?_shift (offset : Int) (left right : Time) :
    (left.shift offset).sub? (right.shift offset) = left.sub? right := by
  simp only [sub?, shift, Int.add_sub_add_right]

/-- Whether a difference exists depends on the kinds of the clocks alone. -/
theorem Time.isSome_sub? {left right left' right' : Time} (hleft : left'.untimed = left.untimed)
    (hright : right'.untimed = right.untimed) :
    (left'.sub? right').isSome = (left.sub? right).isSome := by
  have hleftType : left'.untimed.clockType = left.untimed.clockType := by rw [hleft]
  have hrightType : right'.untimed.clockType = right.untimed.clockType := by rw [hright]
  simp only [Time.untimed] at hleftType hrightType
  simp only [sub?, hleftType, hrightType]
  split <;> rfl

def ProcessStatus.untimed (status : ProcessStatus) : ProcessStatus :=
  { status with uptimeSec := 0 }

/-- An event without clock readings and uptimes. -/
def Event.untimed : Event → Event
  | .stopRequested pid child _ => .stopRequested pid child 0
  | .forceKilled pid child shutdownTimeoutSec _ => .forceKilled pid child shutdownTimeoutSec 0
  | .published statuses => .published (statuses.map ProcessStatus.untimed)
  | event => event

def ManagedProcess.untimed (mp : ManagedProcess) : ManagedProcess :=
  { mp with
    startTime := mp.startTime.untimed
    crashTime := mp.crashTime.untimed
    stopRequestTime := mp.stopRequestTime.untimed }

/-- Whatever is read off an entry without looking at its times. -/
theorem ManagedProcess.view_of_untimed {mp other : ManagedProcess}
    (hsame : other.untimed = mp.untimed) {α : Type} (view : ManagedProcess → α)
    (hview : ∀ mp, view mp.untimed = view mp) : view other = view mp := by
  rw [← hview other, hsame, hview]

/-- All but the entries, the readings of the node clock and the script. -/
def World.untimed (world : World) : World :=
  { world with
    processes := []
    startTime := world.startTime.untimed
    deadline := none
    ros := 0
    script := []
    response := none
    log := world.log.map Event.untimed
    notes := [] }

/-! ## Time-outs -/

namespace ManagedProcess

/-- `check_stop_timeouts` refers to the last stop request. The give-up branch of
`check_odin_health` sets `stopping` and leaves the time of an earlier request. -/
def StopTimed (mp : ManagedProcess) : Prop :=
  (mp.stopping = true ∨ mp.name = odin) ∧ mp.stopRequestTime.clockType = .rosTime

/-- `handle_restarts` refers to the crash. -/
def CrashTimed (mp : ManagedProcess) : Prop :=
  mp.state = .restarting ∧ mp.autoRestart = true

/-- `check_started` refers to the start, to reset a backoff that has grown. -/
def StartTimed (initialBackoffSec : Int) (mp : ManagedProcess) : Prop :=
  (mp.state = .starting ∨ mp.state = .running) ∧ initialBackoffSec < mp.currentBackoffSec

/-- Some time-out refers to a time recorded for the entry. -/
def Timed (initialBackoffSec : Int) (mp : ManagedProcess) : Prop :=
  mp.StopTimed ∨ mp.CrashTimed ∨ mp.StartTimed initialBackoffSec

instance (mp : ManagedProcess) : Decidable mp.StopTimed :=
  inferInstanceAs (Decidable (_ ∧ _))

instance (mp : ManagedProcess) : Decidable mp.CrashTimed :=
  inferInstanceAs (Decidable (_ ∧ _))

instance (initialBackoffSec : Int) (mp : ManagedProcess) :
    Decidable (mp.StartTimed initialBackoffSec) :=
  inferInstanceAs (Decidable (_ ∧ _))

instance (initialBackoffSec : Int) (mp : ManagedProcess) :
    Decidable (mp.Timed initialBackoffSec) :=
  inferInstanceAs (Decidable (_ ∨ _ ∨ _))

/-- Two entries that differ by the offset in the times referred to, and otherwise
in times alone. -/
structure Alike (initialBackoffSec offset : Int) (mp other : ManagedProcess) : Prop where
  same : other.untimed = mp.untimed
  stop : mp.StopTimed → other.stopRequestTime = mp.stopRequestTime.shift offset
  crash : mp.CrashTimed → other.crashTime = mp.crashTime.shift offset
  start : mp.StartTimed initialBackoffSec → other.startTime = mp.startTime.shift offset

namespace Alike

variable {initialBackoffSec offset : Int} {mp other : ManagedProcess}

theorem view (h : mp.Alike initialBackoffSec offset other) {α : Type}
    (view : ManagedProcess → α) (hview : ∀ mp, view mp.untimed = view mp) :
    view other = view mp :=
  view_of_untimed h.same view hview

theorem name (h : mp.Alike initialBackoffSec offset other) : other.name = mp.name :=
  h.view ManagedProcess.name fun _ => rfl

theorem args (h : mp.Alike initialBackoffSec offset other) : other.args = mp.args :=
  h.view ManagedProcess.args fun _ => rfl

theorem pid (h : mp.Alike initialBackoffSec offset other) : other.pid = mp.pid :=
  h.view ManagedProcess.pid fun _ => rfl

theorem state (h : mp.Alike initialBackoffSec offset other) : other.state = mp.state :=
  h.view ManagedProcess.state fun _ => rfl

theorem stopping (h : mp.Alike initialBackoffSec offset other) : other.stopping = mp.stopping :=
  h.view ManagedProcess.stopping fun _ => rfl

theorem autoRestart (h : mp.Alike initialBackoffSec offset other) :
    other.autoRestart = mp.autoRestart :=
  h.view ManagedProcess.autoRestart fun _ => rfl

theorem shutdownTimeoutSec (h : mp.Alike initialBackoffSec offset other) :
    other.shutdownTimeoutSec = mp.shutdownTimeoutSec :=
  h.view ManagedProcess.shutdownTimeoutSec fun _ => rfl

theorem currentBackoffSec (h : mp.Alike initialBackoffSec offset other) :
    other.currentBackoffSec = mp.currentBackoffSec :=
  h.view ManagedProcess.currentBackoffSec fun _ => rfl

theorem waitForTopics (h : mp.Alike initialBackoffSec offset other) :
    other.waitForTopics = mp.waitForTopics :=
  h.view ManagedProcess.waitForTopics fun _ => rfl

theorem dependencies (h : mp.Alike initialBackoffSec offset other) :
    other.dependencies = mp.dependencies :=
  h.view ManagedProcess.dependencies fun _ => rfl

/-- An entry that is neither started, running nor waiting for a restart. -/
theorem of_settled
    (hstate : mp.state = .pending ∨ mp.state = .stopping ∨ mp.state = .stopped)
    (hsame : other.untimed = mp.untimed)
    (hstop : mp.StopTimed → other.stopRequestTime = mp.stopRequestTime.shift offset) :
    mp.Alike initialBackoffSec offset other where
  same := hsame
  stop := hstop
  crash := by
    rintro ⟨hcrashed, _⟩
    simp [hcrashed] at hstate
  start := by
    rintro ⟨hstarted | hstarted, _⟩ <;> simp [hstarted] at hstate

/-- The time since the stop request is the same, or not defined in either run. -/
theorem sub?_stop (h : mp.Alike initialBackoffSec offset other) (hstopping : mp.stopping = true)
    {nowT : Time} (hros : nowT.clockType = .rosTime) :
    (nowT.shift offset).sub? other.stopRequestTime = nowT.sub? mp.stopRequestTime := by
  by_cases htype : mp.stopRequestTime.clockType = .rosTime
  · rw [h.stop ⟨Or.inl hstopping, htype⟩, Time.sub?_shift]
  · have hsame : other.stopRequestTime.clockType = mp.stopRequestTime.clockType :=
      h.view (·.stopRequestTime.clockType) fun _ => rfl
    have hother : ClockType.rosTime ≠ mp.stopRequestTime.clockType := Ne.symm htype
    simp only [Time.sub?, Time.shift, hros, hsame, if_neg hother]

end Alike

end ManagedProcess

/-- Two states that differ by the offset in the times referred to. -/
structure World.Alike (offset : Int) (world other : World) : Prop where
  rest : other.untimed = world.untimed
  script : other.script = world.script
  ros : other.ros = world.ros + offset
  deadline : other.deadline = world.deadline.map (Time.shift offset)
  entries : ∀ i : Nat, Option.Rel (ManagedProcess.Alike world.config.initialBackoffSec offset)
    world.processes[i]? other.processes[i]?

/-- The fields that hold a time the offset shows in, or decide which of them do. -/
def World.scheduled (world : World) :
    List Beat × Int × Option Time × Config × List ManagedProcess :=
  (world.script, world.ros, world.deadline, world.config, world.processes)

namespace World.Alike

variable {offset : Int} {world other : World}

theorem view (h : world.Alike offset other) {α : Type} (view : World → α)
    (hview : ∀ world, view world.untimed = view world) : view other = view world := by
  rw [← hview other, h.rest, hview]

theorem config (h : world.Alike offset other) : other.config = world.config :=
  h.view World.config fun _ => rfl

theorem steady (h : world.Alike offset other) : other.steady = world.steady :=
  h.view World.steady fun _ => rfl

theorem children (h : world.Alike offset other) : other.children = world.children :=
  h.view World.children fun _ => rfl

theorem forks (h : world.Alike offset other) : other.forks = world.forks :=
  h.view World.forks fun _ => rfl

theorem mode (h : world.Alike offset other) : other.mode = world.mode :=
  h.view World.mode fun _ => rfl

theorem log (h : world.Alike offset other) :
    other.log.map Event.untimed = world.log.map Event.untimed := by
  have hrest : other.untimed.log = world.untimed.log := by rw [h.rest]
  exact hrest

theorem beat (h : world.Alike offset other) : other.beat = world.beat := by
  rw [World.beat, World.beat, h.script]

theorem clock (h : world.Alike offset other) : other.clock = world.clock.shift offset := by
  rw [World.clock, World.clock, h.ros]
  rfl

/-- An index is out of range in both tables, or names alike entries. -/
theorem entry_cases (h : world.Alike offset other) (i : Nat) :
    (world.processes[i]? = none ∧ other.processes[i]? = none) ∨
      ∃ mp mp', world.processes[i]? = some mp ∧ other.processes[i]? = some mp' ∧
        mp.Alike world.config.initialBackoffSec offset mp' := by
  have hentry := h.entries i
  generalize world.processes[i]? = left at hentry ⊢
  generalize other.processes[i]? = right at hentry ⊢
  cases hentry with
  | none => exact Or.inl ⟨rfl, rfl⟩
  | some halike => exact Or.inr ⟨_, _, rfl, rfl, halike⟩

/-- The tables agree but for the times. -/
theorem tables (h : world.Alike offset other) :
    other.processes.map ManagedProcess.untimed = world.processes.map ManagedProcess.untimed := by
  apply List.ext_getElem?
  intro i
  rw [List.getElem?_map, List.getElem?_map]
  rcases h.entry_cases i with ⟨hmp, hmp'⟩ | ⟨mp, mp', hmp, hmp', halike⟩
  · rw [hmp, hmp']
  · rw [hmp, hmp']
    exact congrArg some halike.same

/-- Whatever is read off the entries without looking at their times is the same. -/
theorem map_processes (h : world.Alike offset other) {β : Type} {view : ManagedProcess → β}
    (hview : ∀ mp, view mp.untimed = view mp) :
    other.processes.map view = world.processes.map view := by
  have hsame := congrArg (List.map view) h.tables
  simpa only [List.map_map, Function.comp_def, hview] using hsame

theorem length (h : world.Alike offset other) :
    other.processes.length = world.processes.length := by
  simpa using congrArg List.length h.tables

theorem indices (h : world.Alike offset other) : other.indices = world.indices := by
  rw [World.indices, World.indices, h.length]

theorem findProcess (h : world.Alike offset other) (name : String) :
    other.findProcess name = world.findProcess name :=
  World.findProcess_congr (h.map_processes fun _ => rfl) name

theorem serialOf (h : world.Alike offset other) (pid : Pid) :
    other.serialOf pid = world.serialOf pid := by
  rw [World.serialOf, World.serialOf, h.children]

theorem fresh (h : world.Alike offset other) (pid : Pid) :
    other.fresh pid ↔ world.fresh pid := by
  rw [World.fresh, World.fresh, h.config, h.children]

/-! ## Sequencing -/

theorem interact (h : world.Alike offset other) : world.interact.Alike offset other.interact where
  rest := by
    have hrest := congrArg (fun rest : World =>
      { rest with
        steady := rest.steady + world.beat.elapsed
        children := rest.children.map (Child.pass world.beat)
        odometry := rest.odometry ++ world.beat.published.filter rest.publishes }) h.rest
    simp only [World.interact, h.beat]
    exact hrest
  script := by simp only [World.interact, h.script]
  ros := by
    simp only [World.interact, h.beat, h.ros]
    omega
  deadline := h.deadline
  entries := h.entries

theorem andThen (h : world.Alike offset other) {next next' : World → World}
    (hnext : (next world).Alike offset (next' other)) :
    (world.andThen next).Alike offset (other.andThen next') := by
  simp only [World.andThen, h.mode]
  split
  · exact hnext
  · exact h

theorem each (h : world.Alike offset other) {body body' : Nat → World → World}
    (hbody : ∀ i world other, World.Alike offset world other →
      (body i world).Alike offset (body' i other)) (order : List Nat) :
    (world.each order body).Alike offset (other.each order body') := by
  induction order generalizing world other with
  | nil => exact h
  | cons i rest ih => exact ih (h.andThen (hbody i world other h))

theorem onEntry (h : world.Alike offset other) {i : Nat}
    {body body' : ManagedProcess → World → World}
    (hbody : ∀ mp mp', world.processes[i]? = some mp → other.processes[i]? = some mp' →
      mp.Alike world.config.initialBackoffSec offset mp' →
      (body mp world).Alike offset (body' mp' other)) :
    (world.onEntry i body).Alike offset (other.onEntry i body') := by
  rcases h.entry_cases i with ⟨hmp, hmp'⟩ | ⟨mp, mp', hmp, hmp', halike⟩
  · rwa [World.onEntry_none hmp, World.onEntry_none hmp']
  · rw [World.onEntry_some hmp, World.onEntry_some hmp']
    exact hbody mp mp' hmp hmp' halike

theorem ite {first first' second second' : World} {test test' : Prop} [Decidable test]
    [Decidable test'] (htest : test' ↔ test) (hfirst : test → first.Alike offset first')
    (hsecond : ¬ test → second.Alike offset second') :
    (if test then first else second).Alike offset (if test' then first' else second') := by
  by_cases h : test
  · rw [if_pos h, if_pos (htest.mpr h)]
    exact hfirst h
  · rw [if_neg h, if_neg (fun h' => h (htest.mp h'))]
    exact hsecond h

/-! ## Changes of one field -/

theorem update (h : world.Alike offset other) {i : Nat}
    {change change' : ManagedProcess → ManagedProcess}
    (hchange : ∀ mp mp', world.processes[i]? = some mp → other.processes[i]? = some mp' →
      mp.Alike world.config.initialBackoffSec offset mp' →
      (change mp).Alike world.config.initialBackoffSec offset (change' mp')) :
    (world.update i change).Alike offset (other.update i change') :=
  { h with
    entries := by
      intro j
      simp only [World.update, List.getElem?_modify]
      rcases h.entry_cases j with ⟨hmp, hmp'⟩ | ⟨mp, mp', hmp, hmp', halike⟩
      · rw [hmp, hmp']
        exact Option.Rel.none
      · rw [hmp, hmp']
        apply Option.Rel.some
        dsimp only
        split
        next hij =>
          subst hij
          exact hchange mp mp' hmp hmp' halike
        next => exact halike }

theorem record (h : world.Alike offset other) {event event' : Event}
    (hevent : event'.untimed = event.untimed) :
    (world.record event).Alike offset (other.record event') :=
  { h with
    rest := by
      have hrest := congrArg (World.record · event.untimed) h.rest
      simp only [World.record, World.untimed, List.map_cons, hevent] at hrest ⊢
      exact hrest }

/-- Notes are not compared. -/
theorem note (h : world.Alike offset other) (note note' : Note) :
    (world.note note).Alike offset (other.note note') :=
  { h with rest := h.rest }

/-- A change of the other fields that looks at nothing else. -/
theorem alter (h : world.Alike offset other) (change : World → World)
    (hrest : ∀ world, (change world).untimed = change world.untimed)
    (hsame : ∀ world, (change world).scheduled = world.scheduled) :
    (change world).Alike offset (change other) := by
  simp only [scheduled, Prod.mk.injEq] at hsame
  exact {
    rest := by rw [hrest, hrest, h.rest]
    script := by rw [(hsame other).1, (hsame world).1, h.script]
    ros := by rw [(hsame other).2.1, (hsame world).2.1, h.ros]
    deadline := by rw [(hsame other).2.2.1, (hsame world).2.2.1, h.deadline]
    entries := by
      rw [(hsame other).2.2.2.2, (hsame world).2.2.2.1, (hsame world).2.2.2.2]
      exact h.entries }

theorem markKilled (h : world.Alike offset other) (pid : Pid) :
    (world.markKilled pid).Alike offset (other.markKilled pid) :=
  { h with rest := congrArg (World.markKilled · pid) h.rest }

theorem forget (h : world.Alike offset other) (pid : Pid) :
    (world.forget pid).Alike offset (other.forget pid) :=
  { h with rest := congrArg (World.forget · pid) h.rest }

theorem setMode (h : world.Alike offset other) (mode : Mode) :
    ({ world with mode } : World).Alike offset { other with mode } :=
  { h with rest := congrArg (fun rest : World => { rest with mode }) h.rest }

theorem respond (h : world.Alike offset other) (success : Bool) (message : String) :
    (world.respond success message).Alike offset (other.respond success message) :=
  { h with rest := h.rest }

/-! ## Starting and stopping one process -/

theorem isZombieOf (h : world.Alike offset other) (pattern : String) (pid : Pid)
    (cmdline : String) :
    other.isZombieOf pattern pid cmdline = world.isZombieOf pattern pid cmdline := by
  have hpids : other.processes.map (·.pid) = world.processes.map (·.pid) :=
    h.map_processes fun _ => rfl
  have hall := congrArg (List.all · (· != pid)) hpids
  simp only [List.all_map, Function.comp_def] at hall
  simp only [World.isZombieOf, h.config, hall]

theorem killZombie (h : world.Alike offset other) {mp mp' : ManagedProcess}
    (hargs : mp'.args = mp.args) :
    (World.killZombie mp world).Alike offset (World.killZombie mp' other) := by
  unfold World.killZombie
  rw [hargs, h.beat]
  split
  next => exact h
  next pattern _ =>
    have hread := h.interact
    generalize world.interact = cleared at hread
    generalize other.interact = cleared' at hread
    induction world.beat.procfs generalizing cleared cleared' with
    | nil => exact hread
    | cons found rest ih =>
        apply ih
        dsimp only
        rw [hread.isZombieOf]
        split
        · exact (hread.markKilled found.1).record rfl
        · exact hread

/-- A start of the entry is recorded at the offset, whatever its backoff. -/
def Stamped (offset : Int) (i : Nat) (world other : World) : Prop :=
  ∀ mp mp', world.processes[i]? = some mp → other.processes[i]? = some mp' →
    mp.state = .starting → mp'.startTime = mp.startTime.shift offset

theorem forkFailed (h : world.Alike offset other) (i : Nat) (error : String) :
    (World.forkFailed i error world).Alike offset (World.forkFailed i error other) ∧
      Stamped offset i (World.forkFailed i error world) (World.forkFailed i error other) := by
  constructor
  · refine Alike.note ?_ _ _
    apply h.update
    intro mp mp' _ _ halike
    exact {
      same := congrArg (fun rest : ManagedProcess =>
        { rest with
          state := .restarting
          crashTime := ⟨0, .rosTime⟩
          exitReason := "fork_failed:" ++ error }) halike.same
      stop := halike.stop
      crash := fun _ => h.clock
      start := by rintro ⟨hstate | hstate, _⟩ <;> cases hstate }
  · intro mp mp' hmp _ hstate
    rcases Table.getElem?_modify_cases hmp with ⟨_, _, _, rfl⟩ | ⟨hij, _⟩
    · cases hstate
    · exact absurd rfl hij

/-- A fork as a change of fields that no stamp is among, and of one entry. -/
theorem forkSucceeded_eq (world state : World) (i : Nat) (owner : String) (pid : Pid)
    (startTime : Time) (hforks : state.forks = world.forks)
    (hsame : state.processes.map (fun mp => (mp.name, mp.state)) =
      world.processes.map (fun mp => (mp.name, mp.state))) :
    World.forkSucceeded i owner pid startTime state = (World.update { state with
      log := .forked i world.forks pid (world.processes.map fun mp => (mp.name, mp.state)) ::
        state.log
      children := state.children ++ [(⟨pid, world.forks, owner, none, false⟩ : Child)]
      forks := world.forks + 1
      odinHealthArmed := if owner = odin then false else state.odinHealthArmed
      odinRunningSteady := if owner = odin then state.steady else state.odinRunningSteady } i
        fun mp =>
          { mp with pid, state := .starting, startTime, exitCode := 0, exitReason := "" }).note
            (.started i startTime.nanoseconds) := by
  unfold World.forkSucceeded
  rw [← hforks, ← hsame]
  by_cases howner : owner = odin
  · simp only [howner, if_true]
    rfl
  · simp only [howner, if_false]
    rfl

theorem forkSucceeded_stamped (offset : Int) (i : Nat) (owner : String) (pid : Pid)
    (startTime : Time) (world other : World) :
    Stamped offset i (World.forkSucceeded i owner pid startTime world)
      (World.forkSucceeded i owner pid (startTime.shift offset) other) := by
  intro mp mp' hmp hmp' _
  rw [World.forkSucceeded_processes] at hmp hmp'
  rcases Table.getElem?_modify_cases hmp with ⟨_, _, _, rfl⟩ | ⟨hij, _⟩
  · rcases Table.getElem?_modify_cases hmp' with ⟨_, _, _, rfl⟩ | ⟨hij, _⟩
    · rfl
    · exact absurd rfl hij
  · exact absurd rfl hij

theorem forkSucceeded (h : world.Alike offset other) (i : Nat) (owner : String) (pid : Pid)
    (startTime : Time) :
    (World.forkSucceeded i owner pid startTime world).Alike offset
        (World.forkSucceeded i owner pid (startTime.shift offset) other) ∧
      Stamped offset i (World.forkSucceeded i owner pid startTime world)
        (World.forkSucceeded i owner pid (startTime.shift offset) other) := by
  constructor
  · have hstates : other.processes.map (fun mp => (mp.name, mp.state)) =
        world.processes.map fun mp => (mp.name, mp.state) := h.map_processes fun _ => rfl
    have hlisted := h.alter
      (fun rest : World =>
        { rest with
          log := .forked i world.forks pid (world.processes.map fun mp => (mp.name, mp.state)) ::
            rest.log
          children := rest.children ++ [(⟨pid, world.forks, owner, none, false⟩ : Child)]
          forks := world.forks + 1
          odinHealthArmed := if owner = odin then false else rest.odinHealthArmed
          odinRunningSteady := if owner = odin then rest.steady else rest.odinRunningSteady })
      (fun _ => rfl) fun _ => rfl
    rw [forkSucceeded_eq world world i owner pid startTime rfl rfl,
      forkSucceeded_eq world other i owner pid (startTime.shift offset) h.forks hstates]
    refine Alike.note ?_ _ _
    apply hlisted.update
    intro mp mp' _ _ halike
    exact {
      same := congrArg (fun rest : ManagedProcess =>
        { rest with
          pid
          state := .starting
          startTime := startTime.untimed
          exitCode := 0
          exitReason := "" }) halike.same
      stop := halike.stop
      crash := by rintro ⟨hstate, _⟩; cases hstate
      start := fun _ => rfl }
  · exact forkSucceeded_stamped offset i owner pid startTime world other

theorem startProcess (h : world.Alike offset other) (i : Nat) :
    (World.startProcess i world).Alike offset (World.startProcess i other) ∧
      Stamped offset i (World.startProcess i world) (World.startProcess i other) := by
  unfold World.startProcess
  rcases h.entry_cases i with ⟨hmp, hmp'⟩ | ⟨mp, mp', hmp, hmp', halike⟩
  · rw [World.onEntry_none hmp, World.onEntry_none hmp']
    exact ⟨h, fun _ _ hsome => by rw [hmp] at hsome; cases hsome⟩
  · rw [World.onEntry_some hmp, World.onEntry_some hmp', halike.name]
    have hcleared := h.killZombie halike.args
    generalize World.killZombie mp world = cleared at hcleared
    generalize World.killZombie mp' other = cleared' at hcleared
    dsimp only
    rw [hcleared.beat]
    have hread := hcleared.interact.interact
    cases cleared.beat.fork with
    | none => exact hread.forkFailed i _
    | some pid =>
        dsimp only
        by_cases hfresh : cleared.interact.fresh pid
        · rw [if_pos hfresh, if_pos ((hcleared.interact.fresh pid).mpr hfresh), hread.clock]
          -- The start time is read before the monotonic clock of odin1_driver is.
          by_cases hodin : mp.name = odin
          · rw [if_pos hodin, if_pos hodin]
            exact hread.interact.forkSucceeded i mp.name pid _
          · rw [if_neg hodin, if_neg hodin]
            exact hread.forkSucceeded i mp.name pid _
        · rw [if_neg hfresh,
            if_neg fun hfresh' => hfresh ((hcleared.interact.fresh pid).mp hfresh')]
          exact hread.forkFailed i _

theorem requestStop (h : world.Alike offset other) (i : Nat) :
    (World.requestStop i world).Alike offset (World.requestStop i other) := by
  apply h.onEntry
  intro mp mp' _ _ halike
  apply Alike.ite (by rw [halike.pid]) (fun _ => h)
  intro _
  have hread := h.interact
  unfold World.stopRequested
  apply Alike.record
  · apply hread.update
    intro asked asked' _ _ hasked
    apply ManagedProcess.Alike.of_settled (Or.inr (Or.inl rfl))
    · exact congrArg (fun rest : ManagedProcess =>
        { rest with
          stopping := true
          stopRequestTime := ⟨0, .rosTime⟩
          state := .stopping }) hasked.same
    · exact fun _ => hread.clock
  · rw [halike.pid, hread.serialOf]
    rfl

theorem forceKill (h : world.Alike offset other) (i : Nat) :
    (World.forceKill i world).Alike offset (World.forceKill i other) := by
  apply h.onEntry
  intro mp mp' _ _ halike
  apply Alike.ite (by rw [halike.pid]) (fun _ => h)
  intro _
  unfold World.forceKilled
  rw [halike.pid, h.serialOf, halike.shutdownTimeoutSec]
  have hsignalled := (h.record (show (Event.forceKilled mp.pid (world.serialOf mp.pid)
    mp.shutdownTimeoutSec other.ros).untimed = (Event.forceKilled mp.pid (world.serialOf mp.pid)
      mp.shutdownTimeoutSec world.ros).untimed from rfl)).markKilled mp.pid
  refine Alike.note ?_ _ _
  apply hsignalled.update
  intro killed killed' _ _ hkilled
  apply ManagedProcess.Alike.of_settled (Or.inr (Or.inr rfl))
  · exact congrArg (fun rest : ManagedProcess =>
      { rest with stopping := false, pid := -1, state := .stopped }) hkilled.same
  · rintro ⟨hstopping | hodin, htype⟩
    · cases hstopping
    · exact hkilled.stop ⟨Or.inr hodin, htype⟩

end World.Alike

end AcflyRos.Daemon

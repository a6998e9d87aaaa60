import AcflyRos.Daemon.Steps

/-! # A tick in which nothing happens to the children

While the entries are on their way from PENDING to RUNNING and no child exits, most steps
of `on_timer` only read clocks. What is left is `check_started`, which finds every
STARTING entry RUNNING, and `handle_pending`.
-/

namespace AcflyRos.Daemon

open AcflyRos.Transition AcflyRos.Table

/-- An entry that has neither crashed nor been asked to stop. -/
structure ManagedProcess.Rises (config : Config) (pids : List Pid) (mp : ManagedProcess) :
    Prop where
  state : mp.state = .pending ∨ mp.state = .starting ∨ mp.state = .running
  stopping : mp.stopping = false
  backoff : mp.currentBackoffSec ≤ config.initialBackoffSec
  child : mp.state ≠ .pending →
    0 < mp.pid ∧ mp.pid ∈ pids ∧ mp.startTime.clockType = .rosTime

theorem ManagedProcess.Rises.mono {config : Config} {pids more : List Pid} {mp : ManagedProcess}
    (h : mp.Rises config pids) (hpids : pids ⊆ more) : mp.Rises config more where
  state := h.state
  stopping := h.stopping
  backoff := h.backoff
  child := fun hstate => ⟨(h.child hstate).1, hpids (h.child hstate).2.1, (h.child hstate).2.2⟩

/-- No signal, no odometry, no exits, seen or to come in this callback. -/
structure Calm (world : World) : Prop where
  up : world.mode = .up
  signal : world.signalReceived = false
  disarmed : world.odinHealthArmed = false
  clock : world.startTime.clockType = .rosTime
  alive : ∀ child ∈ world.children, child.status = none
  quiet : ∀ beat ∈ world.script, beat.exits = []
  rises : ∀ mp ∈ world.processes, mp.Rises world.config world.childPids

namespace Calm

variable {world : World}

theorem exits (h : Calm world) : world.beat.exits = [] := by
  have hquiet := h.quiet
  unfold World.beat
  cases hscript : world.script with
  | nil => rfl
  | cons beat rest => exact hquiet beat (by simp [hscript])

theorem interact (h : Calm world) : Calm world.interact where
  up := h.up
  signal := h.signal
  disarmed := h.disarmed
  clock := h.clock
  alive := by
    intro child hchild
    obtain ⟨old, hold, rfl⟩ := List.mem_map.mp hchild
    simp [Child.pass, h.alive old hold, h.exits]
  quiet := fun beat hbeat => h.quiet beat (List.mem_of_mem_tail hbeat)
  rises := by
    rw [World.childPids_interact]
    exact h.rises

theorem markKilled (h : Calm world) (pid : Pid) : Calm (world.markKilled pid) where
  up := h.up
  signal := h.signal
  disarmed := h.disarmed
  clock := h.clock
  alive := by
    intro child hchild
    obtain ⟨old, hold, rfl⟩ := List.mem_map.mp hchild
    split
    · exact h.alive old hold
    · exact h.alive old hold
  quiet := h.quiet
  rises := by
    rw [World.childPids_markKilled]
    exact h.rises

theorem record (h : Calm world) (event : Event) : Calm (world.record event) :=
  ⟨h.up, h.signal, h.disarmed, h.clock, h.alive, h.quiet, h.rises⟩

/-- Every entry is changed to one that rises. -/
theorem map (h : Calm world) {change : ManagedProcess → ManagedProcess}
    (hchange : ∀ mp ∈ world.processes, (change mp).Rises world.config world.childPids) :
    Calm { world with processes := world.processes.map change } :=
  ⟨h.up, h.signal, h.disarmed, h.clock, h.alive, h.quiet, by
    intro mp hmp
    obtain ⟨old, hold, rfl⟩ := List.mem_map.mp hmp
    exact hchange old hold⟩

end Calm

namespace World

variable {world : World}

/-! ## Steps that only read a clock -/

theorem each_idle {body : Nat → World → World} {order : List Nat}
    (hbody : ∀ i, body i world = world) : world.each order body = world := by
  induction order with
  | nil => rfl
  | cons i rest ih =>
      unfold each at ih ⊢
      rw [List.foldl_cons]
      have hhead : world.andThen (body i) = world := by
        unfold andThen
        split
        · exact hbody i
        · rfl
      rw [hhead, ih]

theorem onEntry_idle {i : Nat} {body : ManagedProcess → World → World}
    (hbody : ∀ mp ∈ world.processes, body mp world = world) : world.onEntry i body = world := by
  cases hentry : world.processes[i]? with
  | none => rw [onEntry_none hentry]
  | some mp =>
      rw [onEntry_some hentry]
      exact hbody mp (List.mem_of_getElem? hentry)

theorem reapChildren_calm (h : Calm world) : reapChildren world = world.interact := by
  have hnone : world.interact.waitpid world.beat.reaps = none := by
    have hzombies : (world.interact.children.filterMap fun child => child.status.map (child, ·)) =
        [] := by
      rw [List.filterMap_eq_nil_iff]
      intro child hchild
      rw [h.interact.alive child hchild, Option.map_none]
    simp [waitpid, hzombies]
  unfold reapChildren reapLoop
  simp only [hnone]

theorem checkStopTimeouts_calm (h : Calm world) : checkStopTimeouts world = world.interact := by
  unfold checkStopTimeouts
  apply each_idle
  intro i
  apply onEntry_idle
  intro mp hmp
  simp [(h.interact.rises mp hmp).stopping]

theorem resetBackoffs_calm (h : Calm world) : resetBackoffs world = world.interact := by
  unfold resetBackoffs
  apply each_idle
  intro i
  apply onEntry_idle
  intro mp hmp
  have hbackoff := (h.interact.rises mp hmp).backoff
  simp only [if_pos hbackoff, ite_self]

theorem checkOdinHealth_calm (h : Calm world) : checkOdinHealth world = world := by
  unfold checkOdinHealth
  split
  next => rfl
  next =>
    apply onEntry_idle
    intro mp _
    simp [h.disarmed]

theorem handleRestarts_calm (h : Calm world) : handleRestarts world = world.interact := by
  unfold handleRestarts
  apply each_idle
  intro i
  apply onEntry_idle
  intro mp hmp
  have hstate : mp.state ≠ .restarting := by
    rcases (h.interact.rises mp hmp).state with hstate | hstate | hstate <;> simp [hstate]
  exact if_pos hstate

/-! ## `check_started` -/

/-- What becomes of an entry whose child exists. -/
def promote (mp : ManagedProcess) : ManagedProcess :=
  if mp.state = .starting then { mp with state := .running } else mp

def promoteAll (world : World) : World := { world with processes := world.processes.map promote }

theorem promote_rises {config : Config} {pids : List Pid} {mp : ManagedProcess}
    (h : mp.Rises config pids) : (promote mp).Rises config pids := by
  unfold promote
  split
  next hstarting =>
    refine ⟨Or.inr (Or.inr rfl), h.stopping, h.backoff, fun _ => h.child ?_⟩
    simp [hstarting]
  next => exact h

theorem promote_state {mp : ManagedProcess} {config : Config} {pids : List Pid}
    (h : mp.Rises config pids) :
    (promote mp).state = if mp.state = .pending then .pending else .running := by
  unfold promote
  rcases h.state with hstate | hstate | hstate <;> simp [hstate]

theorem update_calm (h : Calm world) {i : Nat} {change : ManagedProcess → ManagedProcess}
    (hchange : ∀ mp, world.processes[i]? = some mp →
      (change mp).Rises world.config world.childPids) : Calm (world.update i change) :=
  ⟨h.up, h.signal, h.disarmed, h.clock, h.alive, h.quiet, forall_modify h.rises hchange⟩

/-- The children of all STARTING entries exist. -/
theorem markRunning_entry (h : Calm world) (i : Nat) :
    (world.onEntry i fun mp world =>
      if mp.state ≠ .starting then world
      else if mp.pid ≤ 0 then world
      else if world.exists? mp.pid then world.update i fun mp => { mp with state := .running }
      else world) = world.update i promote := by
  have hsame : ∀ {change : ManagedProcess → ManagedProcess},
      (∀ mp, world.processes[i]? = some mp → change mp = promote mp) →
        world.update i change = world.update i promote := by
    intro change hchange
    rw [update, update, modify_congr hchange]
  cases hentry : world.processes[i]? with
  | none =>
      rw [onEntry_none hentry]
      unfold update
      rw [List.modify_eq_self (List.getElem?_eq_none_iff.mp hentry)]
  | some mp =>
      rw [onEntry_some hentry]
      have hrises := h.rises mp (List.mem_of_getElem? hentry)
      by_cases hstate : mp.state = .starting
      · obtain ⟨hpid, hchild, _⟩ := hrises.child (by simp [hstate])
        have hexists : world.exists? mp.pid = true := by
          obtain ⟨child, hmem, hpid⟩ := List.mem_map.mp hchild
          rw [exists?, List.any_eq_true]
          exact ⟨child, hmem, beq_iff_eq.mpr hpid⟩
        rw [if_neg (not_not_intro hstate), if_neg (Int.not_le.mpr hpid), if_pos hexists]
        apply hsame
        intro same hsame
        cases hentry.symm.trans hsame
        exact (if_pos hstate).symm
      · rw [if_pos hstate]
        have hkept : world.update i id = world.update i promote := by
          apply hsame
          intro same hsame
          cases hentry.symm.trans hsame
          exact (if_neg hstate).symm
        rw [← hkept, update, List.modify_id]

theorem markRunning_calm (h : Calm world) : markRunning world = world.promoteAll := by
  have hloop : ∀ (order : List Nat) (world : World), Calm world →
      (world.each order fun i world => world.onEntry i fun mp world =>
        if mp.state ≠ .starting then world
        else if mp.pid ≤ 0 then world
        else if world.exists? mp.pid then world.update i fun mp => { mp with state := .running }
        else world) =
        { world with
          processes := order.foldl (fun table i => table.modify i promote) world.processes } := by
    intro order
    induction order with
    | nil => exact fun _ _ => rfl
    | cons i rest ih =>
        intro world h
        have hnext : Calm (world.update i promote) :=
          update_calm h fun mp hentry => promote_rises (h.rises mp (List.mem_of_getElem? hentry))
        unfold each at ih ⊢
        simp only [List.foldl_cons, andThen, if_pos h.up, markRunning_entry h]
        exact ih _ hnext
  unfold markRunning
  rw [hloop _ _ h, indices, foldl_modify_range]
  rfl

theorem promoteAll_calm (h : Calm world) : Calm world.promoteAll :=
  h.map fun mp hmp => promote_rises (h.rises mp hmp)

theorem checkStarted_calm (h : Calm world) : checkStarted world = world.promoteAll.interact := by
  unfold checkStarted andThen
  rw [markRunning_calm h, if_pos (promoteAll_calm h).up, resetBackoffs_calm (promoteAll_calm h)]

/-- `on_timer` up to `handle_pending`. -/
def beforePending (world : World) : World := (beforeRestarts world).andThen handleRestarts

/-- All that happens before `handle_pending` is that STARTING becomes RUNNING. -/
theorem beforePending_calm (h : Calm world) :
    Calm world.beforePending ∧ world.beforePending.processes = world.processes.map promote := by
  have hreaped := h.interact
  have hchecked := hreaped.interact
  have hstarted := (promoteAll_calm hchecked).interact
  unfold beforePending beforeRestarts beforeHealth andThen
  simp only [reapChildren_calm h, hreaped.up, if_true, checkStopTimeouts_calm hreaped, hchecked.up,
    checkStarted_calm hchecked, hstarted.up, checkOdinHealth_calm hstarted,
    handleRestarts_calm hstarted]
  exact ⟨hstarted.interact, rfl⟩

/-! ## `handle_pending` -/

/-- The body of the loop of `handle_pending`. -/
def pendingEntry (i : Nat) (world : World) : World := world.onEntry i fun mp world =>
  if mp.state ≠ .pending then world
  else if world.dependenciesRunning mp = false then world
  else if mp.waitForTopics = [] then startProcess i world
  else
    let topics := world.beat.topics
    let world := world.interact
    if topicsReady topics mp then startProcess i world else world

theorem handlePending_eq (world : World) :
    handlePending world = world.each world.indices pendingEntry := rfl

/-- The entry is about to be started. -/
def IsDue (world : World) (mp : ManagedProcess) : Prop :=
  mp.state = .pending ∧ world.dependenciesRunning mp = true

instance (world : World) (mp : ManagedProcess) : Decidable (world.IsDue mp) :=
  inferInstanceAs (Decidable (_ ∧ _))

/-- Its topics are there, and `fork` hands out a pid. -/
def Grants (world : World) (mp : ManagedProcess) : Prop :=
  (mp.waitForTopics = [] ∨ topicsReady world.beat.topics mp = true) ∧
    ∃ pid ∈ (killZombie mp (if mp.waitForTopics = [] then world else world.interact)).beat.fork,
      (killZombie mp (if mp.waitForTopics = [] then world else
        world.interact)).interact.fresh pid

instance (world : World) (mp : ManagedProcess) : Decidable (world.Grants mp) :=
  inferInstanceAs (Decidable (_ ∧ ∃ pid ∈ (killZombie mp _).beat.fork, _))

/-- Every entry that the loop is about to start has its topics, and is forked. -/
inductive GrantsAll : List Nat → World → Prop where
  | done (world : World) : GrantsAll [] world
  | next {world : World} {i : Nat} {rest : List Nat}
      (hhere : ∀ mp ∈ world.processes[i]?, world.IsDue mp → world.Grants mp)
      (hrest : GrantsAll rest (pendingEntry i world)) : GrantsAll (i :: rest) world

theorem grantsAll_cons {world : World} {i : Nat} {rest : List Nat} :
    GrantsAll (i :: rest) world ↔
      (∀ mp ∈ world.processes[i]?, world.IsDue mp → world.Grants mp) ∧
        GrantsAll rest (pendingEntry i world) := by
  constructor
  · intro hall
    cases hall with
    | next hhere hrest => exact ⟨hhere, hrest⟩
  · exact fun ⟨hhere, hrest⟩ => .next hhere hrest

instance decidableGrantsAll : (order : List Nat) → (world : World) →
    Decidable (GrantsAll order world)
  | [], world => .isTrue (.done world)
  | _ :: rest, _ =>
      have := decidableGrantsAll rest
      decidable_of_iff _ grantsAll_cons.symm

theorem killZombie_calm (mp : ManagedProcess) (h : Calm world) :
    Calm (killZombie mp world) ∧ (killZombie mp world).processes = world.processes := by
  unfold killZombie
  split
  next => exact ⟨h, rfl⟩
  next pattern _ =>
    refine List.foldlRecOn
      (motive := fun later : World => Calm later ∧ later.processes = world.processes) _ _ ?_ ?_
    · exact ⟨h.interact, rfl⟩
    · rintro later ⟨hcalm, hprocesses⟩ ⟨pid, cmdline⟩ _
      dsimp only
      split
      · exact ⟨(hcalm.markKilled pid).record (.zombieKilled pid), hprocesses⟩
      · exact ⟨hcalm, hprocesses⟩

/-- A started entry rises with its new child. -/
theorem forkSucceeded_calm (h : Calm world) (i : Nat) (owner : String) {pid : Pid}
    {startTime : Time} (hpid : 0 < pid) (hclock : startTime.clockType = .rosTime) :
    Calm (world.forkSucceeded i owner pid startTime) where
  up := (forkSucceeded_mode ..).trans h.up
  signal := (forkSucceeded_signalReceived ..).trans h.signal
  disarmed := by
    cases harmed : (world.forkSucceeded i owner pid startTime).odinHealthArmed with
    | false => rfl
    | true =>
        have hbefore := (world.forkSucceeded_armed i owner pid startTime harmed).2
        rw [h.disarmed] at hbefore
        cases hbefore
  clock := by
    rw [forkSucceeded_startTime]
    exact h.clock
  alive := by
    rw [forkSucceeded_children]
    intro child hchild
    rcases List.mem_append.mp hchild with hold | hnew
    · exact h.alive child hold
    · rw [List.mem_singleton.mp hnew]
  quiet := by
    rw [forkSucceeded_script]
    exact h.quiet
  rises := by
    have hpids : (world.forkSucceeded i owner pid startTime).childPids =
        world.childPids ++ [pid] := by
      simp [childPids, forkSucceeded_children]
    rw [forkSucceeded_processes, forkSucceeded_config, hpids]
    have hrises : ∀ mp ∈ world.processes, mp.Rises world.config (world.childPids ++ [pid]) :=
      fun mp hmp => (h.rises mp hmp).mono (List.subset_append_left _ _)
    refine forall_modify hrises fun mp hmp => ?_
    have hbefore := hrises mp (List.mem_of_getElem? hmp)
    exact ⟨Or.inr (Or.inl rfl), hbefore.stopping, hbefore.backoff,
      fun _ => ⟨hpid, by simp, hclock⟩⟩

/-- A change that makes its entry STARTING, and else only sets what the waves do not see. -/
structure BeginsStart (change : ManagedProcess → ManagedProcess) : Prop extends
    KeepsStates change where
  starting : ∀ mp, (change mp).state = .starting

theorem startProcess_calm (h : Calm world) {i : Nat} {mp : ManagedProcess}
    (hentry : world.processes[i]? = some mp) {pid : Pid}
    (hfork : pid ∈ (killZombie mp world).beat.fork)
    (hfresh : (killZombie mp world).interact.fresh pid) :
    Calm (startProcess i world) ∧ ∃ change, BeginsStart change ∧
      (startProcess i world).processes = world.processes.modify i change := by
  obtain ⟨hcleared, hprocesses⟩ := killZombie_calm mp h
  rw [startProcess, onEntry_some hentry]
  dsimp only
  rw [Option.mem_def.mp hfork]
  simp only [if_pos hfresh]
  generalize killZombie mp world = cleared at *
  have hforked := hcleared.interact.interact
  have hstarted : ∀ (later : World), Calm later → later.processes = world.processes →
      Calm (later.forkSucceeded i mp.name pid cleared.interact.interact.clock) ∧
        ∃ change, BeginsStart change ∧ (later.forkSucceeded i mp.name pid
          cleared.interact.interact.clock).processes = world.processes.modify i change := by
    intro later hlater hsame
    refine ⟨forkSucceeded_calm hlater i mp.name hfresh.1 rfl, _, ⟨⟨?_, ?_, ?_⟩, ?_⟩,
      hsame ▸ forkSucceeded_processes later i mp.name pid cleared.interact.interact.clock⟩
    · exact fun _ => rfl
    · exact fun _ => rfl
    · exact fun _ _ => ProcessState.noConfusion
    · exact fun _ => rfl
  split
  · exact hstarted _ hforked.interact hprocesses
  · exact hstarted _ hforked hprocesses

/-- The entry is started if it is due, and whatever was RUNNING still is. -/
structure StartsDue (i : Nat) (world next : World) : Prop where
  calm : Calm next
  runStates : next.runStates = world.runStates
  entry : ∃ change, next.processes = world.processes.modify i change ∧
    ∀ mp, world.processes[i]? = some mp →
      (change mp).state = if world.IsDue mp then .starting else mp.state

theorem StartsDue.of_same {i : Nat} {next : World} (hnext : Calm next)
    (hprocesses : next.processes = world.processes)
    (hnot : ∀ mp, world.processes[i]? = some mp → ¬ world.IsDue mp) : StartsDue i world next where
  calm := hnext
  runStates := by rw [World.runStates, World.runStates, hprocesses]
  entry := by
    refine ⟨id, by rw [hprocesses, List.modify_id], fun mp hmp => ?_⟩
    rw [if_neg (hnot mp hmp)]
    rfl

/-- Reading the graph of topics changes no entry. -/
theorem startProcess_startsDue {i : Nat} {later : World} (hlater : Calm later)
    (hsame : later.processes = world.processes) {mp : ManagedProcess}
    (hentry : world.processes[i]? = some mp) (hdue : world.IsDue mp) {pid : Pid}
    (hfork : pid ∈ (killZombie mp later).beat.fork)
    (hfresh : (killZombie mp later).interact.fresh pid) :
    StartsDue i world (startProcess i later) := by
  obtain ⟨hcalm, change, hbegins, hprocesses⟩ :=
    startProcess_calm hlater (hsame.symm ▸ hentry) hfork hfresh
  rw [hsame] at hprocesses
  have hnot : mp.state ≠ .running := by simp [hdue.1]
  refine ⟨hcalm, runStates_modify hbegins.toKeepsStates hprocesses hentry hnot, change, hprocesses,
    fun same hsame => ?_⟩
  cases hentry.symm.trans hsame
  rw [if_pos hdue]
  exact hbegins.starting mp

theorem pendingEntry_calm (h : Calm world) {i : Nat}
    (hgrants : ∀ mp ∈ world.processes[i]?, world.IsDue mp → world.Grants mp) :
    StartsDue i world (pendingEntry i world) := by
  unfold pendingEntry
  cases hentry : world.processes[i]? with
  | none =>
      rw [onEntry_none hentry]
      exact .of_same h rfl fun mp hmp => by simp [hentry] at hmp
  | some mp =>
      rw [onEntry_some hentry]
      by_cases hdue : world.IsDue mp
      · obtain ⟨htopics, pid, hfork, hfresh⟩ := hgrants mp hentry hdue
        rw [if_neg (not_not_intro hdue.1), if_neg (by simp [hdue.2])]
        by_cases hnone : mp.waitForTopics = []
        · simp only [if_pos hnone] at hfork hfresh ⊢
          exact startProcess_startsDue h rfl hentry hdue hfork hfresh
        · simp only [if_neg hnone] at hfork hfresh ⊢
          rw [if_pos (htopics.resolve_left hnone)]
          exact startProcess_startsDue h.interact rfl hentry hdue hfork hfresh
      · have hkept : StartsDue i world world := by
          refine .of_same h rfl fun same hsame => ?_
          cases hentry.symm.trans hsame
          exact hdue
        split
        next => exact hkept
        next hstate =>
          split
          next => exact hkept
          next hdeps => exact absurd ⟨not_not.mp hstate, by simpa using hdeps⟩ hdue

/-- The loop starts the entries that are due when it begins, in whatever order it comes to them. -/
theorem pendingLoop_calm {order : List Nat} (hnodup : order.Nodup) (h : Calm world)
    (hgrants : GrantsAll order world) :
    Calm (world.each order pendingEntry) ∧ ∀ i mp, world.processes[i]? = some mp →
      ∃ after, (world.each order pendingEntry).processes[i]? = some after ∧
        after.state = if i ∈ order ∧ world.IsDue mp then .starting else mp.state := by
  induction order generalizing world with
  | nil => exact ⟨h, fun i mp hmp => ⟨mp, hmp, by simp⟩⟩
  | cons j rest ih =>
      obtain ⟨hj, hrest⟩ := List.nodup_cons.mp hnodup
      obtain ⟨hfirst, hlater⟩ := grantsAll_cons.mp hgrants
      obtain ⟨hcalm, hstates, change, hprocesses, hchange⟩ := pendingEntry_calm h hfirst
      have hhead : world.each (j :: rest) pendingEntry =
          (pendingEntry j world).each rest pendingEntry := by
        unfold each
        rw [List.foldl_cons, andThen, if_pos h.up]
      obtain ⟨hlast, hall⟩ := ih hrest hcalm hlater
      rw [hhead]
      refine ⟨hlast, fun i mp hmp => ?_⟩
      -- STARTING is not RUNNING, so that nothing becomes due during the loop.
      have hdue : ∀ mp : ManagedProcess, (pendingEntry j world).IsDue mp ↔ world.IsDue mp := by
        intro mp
        unfold IsDue
        rw [dependenciesRunning_congr mp hstates]
      by_cases hij : i = j
      · subst hij
        have hmiddle : (pendingEntry i world).processes[i]? = some (change mp) := by
          rw [hprocesses]
          exact getElem?_modify_self hmp
        obtain ⟨after, hafter, hstate⟩ := hall i (change mp) hmiddle
        refine ⟨after, hafter, ?_⟩
        rw [hstate, hchange mp hmp]
        simp [hj]
      · have hmiddle : (pendingEntry j world).processes[i]? = some mp := by
          rw [hprocesses, List.getElem?_modify_ne _ _ (Ne.symm hij)]
          exact hmp
        obtain ⟨after, hafter, hstate⟩ := hall i mp hmiddle
        refine ⟨after, hafter, ?_⟩
        rw [hstate]
        simp [hij, hdue]

/-! ## `publish_status` -/

theorem collectStatuses_calm (entries : List ManagedProcess) (done : List ProcessStatus)
    (h : Calm world) (hentries : ∀ mp ∈ entries, mp.Rises world.config world.childPids) :
    Calm (collectStatuses entries done world).2 ∧
      (collectStatuses entries done world).1.isSome = true ∧
      (collectStatuses entries done world).2.processes = world.processes := by
  induction entries generalizing done world with
  | nil => exact ⟨h, rfl, rfl⟩
  | cons mp rest ih =>
      have hread : Calm (if mp.state = .running then world.interact else world) := by
        split
        · exact h.interact
        · exact h
      have hsame : (if mp.state = .running then world.interact else world).processes =
          world.processes ∧ ∀ other ∈ rest,
            other.Rises (if mp.state = .running then world.interact else world).config
              (if mp.state = .running then world.interact else world).childPids := by
        have hrest : ∀ other ∈ rest, other.Rises world.config world.childPids :=
          fun other hother => hentries other (List.mem_cons_of_mem _ hother)
        split
        · rw [childPids_interact]
          exact ⟨rfl, hrest⟩
        · exact ⟨rfl, hrest⟩
      -- No subtraction of times throws, since start times are on the node's clock.
      have hstatus : ∀ later : World, ∃ status, processStatus mp later = some status := by
        intro later
        have hrises := hentries mp List.mem_cons_self
        unfold processStatus
        by_cases hstate : mp.state = .running
        · have hclock := (hrises.child (by simp [hstate])).2.2
          simp [hstate, Time.sub?, clock, hclock]
        · simp [hstate]
      obtain ⟨status, hstatus⟩ :=
        hstatus (if mp.state = .running then world.interact else world)
      obtain ⟨hcalm, hsome, hprocesses⟩ := ih (done ++ [status]) hread hsame.2
      unfold collectStatuses
      simp only [hstatus]
      exact ⟨hcalm, hsome, hprocesses.trans hsame.1⟩

theorem publishStatus_calm (h : Calm world) :
    Calm (publishStatus world) ∧ (publishStatus world).processes = world.processes := by
  have hclock : ∃ uptimeSec, world.interact.clock.sub? world.interact.startTime =
      some uptimeSec := by
    refine ⟨_, if_pos ?_⟩
    exact h.clock.symm
  obtain ⟨uptimeSec, hclock⟩ := hclock
  unfold publishStatus
  simp only [hclock]
  have hcollected := fun done =>
    collectStatuses_calm world.interact.processes done h.interact h.interact.rises
  split
  next _ hcollect =>
    obtain ⟨_, hsome, _⟩ := hcollect ▸ hcollected _
    cases hsome
  next statuses _ hcollect =>
    obtain ⟨hcalm, _, hprocesses⟩ := hcollect ▸ hcollected _
    exact ⟨hcalm.record _, hprocesses⟩

/-! ## The tick -/

theorem onTimer_eq (hsignal : world.signalReceived = false) :
    onTimer world = world.beforePending.andThen fun world =>
      (handlePending world).andThen publishStatus := by
  unfold onTimer
  rw [if_neg (by simp [hsignal])]
  rfl

/-- The dependency check sees the entries as `check_started` leaves them. -/
theorem dependenciesRunning_promote (mp : ManagedProcess) :
    world.dependenciesRunning (promote mp) = world.dependenciesRunning mp := by
  unfold promote
  split <;> rfl

/-- Everything that had been started is RUNNING afterwards, and what has its dependencies RUNNING
by then is started. -/
theorem onTimer_calm (h : Calm world)
    (hgrants : GrantsAll world.beforePending.indices world.beforePending) :
    Calm (onTimer world) ∧ ∀ (i : Nat) (mp : ManagedProcess), world.processes[i]? = some mp →
      ∃ after : ManagedProcess, (onTimer world).processes[i]? = some after ∧
        after.state = if mp.state ≠ .pending then .running
          else if world.promoteAll.dependenciesRunning mp = true then .starting else .pending := by
  rw [onTimer_eq h.signal]
  obtain ⟨hbefore, hprocesses⟩ := beforePending_calm h
  generalize world.beforePending = before at *
  have hnodup : before.indices.Nodup := List.nodup_range
  obtain ⟨hloop, hstates⟩ := pendingLoop_calm hnodup hbefore hgrants
  obtain ⟨hlast, hsame⟩ := publishStatus_calm hloop
  rw [andThen, if_pos hbefore.up, andThen, handlePending_eq, if_pos hloop.up]
  refine ⟨hlast, fun i mp hmp => ?_⟩
  have hpromoted : before.processes[i]? = some (promote mp) := by
    rw [hprocesses, List.getElem?_map, hmp, Option.map_some]
  obtain ⟨after, hafter, hstate⟩ := hstates i _ hpromoted
  refine ⟨after, hsame ▸ hafter, ?_⟩
  have hlisted : i ∈ before.indices := by
    rw [indices, List.mem_range]
    exact (List.getElem?_eq_some_iff.mp hpromoted).1
  have hruns : before.runStates = world.promoteAll.runStates := by
    rw [runStates, runStates, hprocesses]
    rfl
  have hkept := promote_state (h.rises mp (List.mem_of_getElem? hmp))
  have hdue : before.IsDue (promote mp) ↔
      mp.state = .pending ∧ world.promoteAll.dependenciesRunning mp = true := by
    unfold IsDue
    rw [dependenciesRunning_promote, dependenciesRunning_congr _ hruns, hkept]
    by_cases hpending : mp.state = .pending <;> simp [hpending]
  rw [hstate, hkept]
  by_cases hpending : mp.state = .pending
  · simp [hlisted, hdue, hpending]
  · simp [hdue, hpending]

end World

end AcflyRos.Daemon

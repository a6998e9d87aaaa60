import AcflyRos.Daemon.Vitals

/-! # Times of the node clock

The difference of times of two clocks throws. The times of starts and crashes that the timer and
the status reports go by are readings of the node clock, and so are all those that they are
compared with: none of these functions ends the node.
-/

namespace AcflyRos.Daemon

open AcflyRos.Transition AcflyRos.Table

/-! ## The times of starts and crashes -/

/-- The times that go with the state of the entry are readings of the node clock. -/
structure ManagedProcess.Clocked (mp : ManagedProcess) : Prop where
  start : mp.state.rising → mp.startTime.clockType = .rosTime
  crash : mp.state = .restarting → mp.crashTime.clockType = .rosTime

structure World.Clocked (world : World) : Prop where
  start : world.startTime.clockType = .rosTime
  entries : ∀ mp ∈ world.processes, mp.Clocked

/-- In most states no such time counts. -/
theorem ManagedProcess.clocked_of_idle {mp : ManagedProcess} (hdown : ¬ mp.state.rising)
    (hcrashed : mp.state ≠ .restarting) : mp.Clocked :=
  ⟨fun hrising => absurd hrising hdown, fun hcrash => absurd hcrash hcrashed⟩

namespace World.Clocked

variable {world next : World} {i : Nat} {change : ManagedProcess → ManagedProcess}

theorem of_same (h : world.Clocked) (hstart : next.startTime = world.startTime)
    (hprocesses : next.processes = world.processes) : next.Clocked :=
  ⟨hstart ▸ h.start, hprocesses ▸ h.entries⟩

theorem of_modify (h : world.Clocked) (hstart : next.startTime = world.startTime)
    (hprocesses : next.processes = world.processes.modify i change)
    (hchange : ∀ mp, world.processes[i]? = some mp → (change mp).Clocked) : next.Clocked :=
  ⟨hstart ▸ h.start, hprocesses ▸ forall_modify h.entries hchange⟩

/-- The entry keeps its state and its times. -/
theorem of_update (h : world.Clocked) (hstart : next.startTime = world.startTime)
    (hprocesses : next.processes = world.processes.modify i change)
    (hchange : ∀ mp : ManagedProcess, mp.Clocked → (change mp).Clocked) : next.Clocked :=
  h.of_modify hstart hprocesses fun mp hmp => hchange mp (h.entries mp (List.mem_of_getElem? hmp))

theorem forkFailed (h : world.Clocked) (i : Nat) (error : String) :
    (World.forkFailed i error world).Clocked :=
  h.of_modify rfl rfl fun _ _ => ⟨fun hrising => by simp [ProcessState.rising] at hrising,
    fun _ => rfl⟩

theorem forkSucceeded (h : world.Clocked) (i : Nat) (owner : String) (pid : Pid)
    {startTime : Time} (hclock : startTime.clockType = .rosTime) :
    (World.forkSucceeded i owner pid startTime world).Clocked :=
  h.of_modify (by simp) (world.forkSucceeded_processes i owner pid startTime)
    fun _ _ => ⟨fun _ => hclock, fun hcrash => by cases hcrash⟩

theorem resetForStart (h : world.Clocked) (i : Nat) (name : String) :
    (World.resetForStart i name world).Clocked := by
  refine h.of_modify ?_ (world.resetForStart_processes i name)
    fun _ _ => ManagedProcess.clocked_of_idle (by simp [ProcessState.rising]) (by simp)
  unfold World.resetForStart
  split <;> rfl

theorem stopRequested (h : world.Clocked) (i : Nat) (pid : Pid) :
    (World.stopRequested i pid world).Clocked :=
  h.of_modify rfl rfl fun _ _ =>
    ManagedProcess.clocked_of_idle (by simp [ProcessState.rising]) (by simp)

theorem markRunning (h : world.Clocked) {mp : ManagedProcess}
    (hentry : world.processes[i]? = some mp) (hstate : mp.state = .starting) :
    (world.update i fun mp => { mp with state := .running }).Clocked := by
  refine h.of_modify rfl rfl fun same hsame => ⟨fun _ => ?_, fun hcrash => by cases hcrash⟩
  cases hentry.symm.trans hsame
  exact (h.entries mp (List.mem_of_getElem? hentry)).start (Or.inl hstate)

end World.Clocked

theorem Act.clocked {kind : Kind} {world next : World} (hact : Act kind world next)
    (h : world.Clocked) : next.Clocked := by
  have hidle : ∀ {mp : ManagedProcess}, mp.state = .stopped → mp.Clocked := fun hstopped =>
    ManagedProcess.clocked_of_idle (by simp [hstopped, ProcessState.rising]) (by simp [hstopped])
  cases hact with
  | fork _ _ i mp pid _ _ _ _ _ hclock => exact h.forkSucceeded i mp.name pid hclock
  | forkFail _ _ i _ error => exact h.forkFailed i error
  | reset _ i mp => exact h.resetForStart i mp.name
  | resetEntries =>
      refine ⟨h.start, fun after hafter => ?_⟩
      obtain ⟨mp, _, rfl⟩ := List.mem_map.mp hafter
      exact ManagedProcess.clocked_of_idle (by simp [ProcessState.rising]) (by simp)
  | requestStop _ i mp => exact h.stopRequested i mp.pid
  | forceKill | reapStopped => exact h.of_modify rfl rfl fun _ _ => hidle rfl
  | reapCrashed =>
      exact h.of_modify rfl rfl fun _ _ => ⟨fun hrising => by simp [ProcessState.rising] at hrising,
        fun _ => rfl⟩
  | markRunning _ i mp hentry hstate => exact h.markRunning hentry hstate
  | permitRestart | resetBackoff | countRestart | growBackoff | giveUp =>
      exact h.of_update rfl rfl fun _ hmp => ⟨hmp.start, hmp.crash⟩
  | _ => exact h.of_same rfl rfl

theorem clocked_initial (config : Config) (nodes : List ProcessNode) (ros steady : Int) :
    (initial config nodes ros steady).Clocked where
  start := rfl
  entries mp hmp := ManagedProcess.clocked_of_idle
    (by simp [(initial_entries hmp).2.1, ProcessState.rising]) (by simp [(initial_entries hmp).2.1])

theorem acts_clocked {allow : Kind → Prop} {world next : World}
    (hacts : Acts Act allow world next) (h : world.Clocked) : next.Clocked :=
  hacts.keeps World.Clocked (fun _ _ _ _ hact => hact.clocked) h

/-! ## Callbacks that go by them -/

/-- The node is up and goes by its own clock. -/
structure Serene (world : World) : Prop where
  up : world.mode = .up
  clocked : world.Clocked

namespace World

/-- A reading of the node clock has a difference to any of its readings. -/
theorem clock_sub? (world : World) {time : Time} (hclock : time.clockType = .rosTime) :
    world.clock.sub? time = some (world.ros - time.nanoseconds) :=
  if_pos hclock.symm

theorem andThen_serene {world : World} {next : World → World} (h : Serene world)
    (hnext : Serene world → Serene (next world)) : Serene (world.andThen next) := by
  rw [andThen, if_pos h.up]
  exact hnext h

theorem onEntry_serene {world : World} {body : ManagedProcess → World → World} (i : Nat)
    (h : Serene world)
    (hbody : ∀ mp, world.processes[i]? = some mp → mp.Clocked → Serene (body mp world)) :
    Serene (world.onEntry i body) := by
  cases hentry : world.processes[i]? with
  | none => rwa [onEntry_none hentry]
  | some mp =>
      rw [onEntry_some hentry]
      exact hbody mp hentry (h.clocked.entries mp (List.mem_of_getElem? hentry))

theorem onEntry_up {world : World} {body : ManagedProcess → World → World} (i : Nat)
    (hup : world.mode = .up)
    (hbody : ∀ mp, world.processes[i]? = some mp → (body mp world).mode = .up) :
    (world.onEntry i body).mode = .up := by
  cases hentry : world.processes[i]? with
  | none => rwa [onEntry_none hentry]
  | some mp =>
      rw [onEntry_some hentry]
      exact hbody mp hentry

theorem interact_serene {world : World} (h : Serene world) : Serene world.interact :=
  ⟨h.up, h.clocked.of_same rfl rfl⟩

theorem update_serene {world : World} {change : ManagedProcess → ManagedProcess} (i : Nat)
    (h : Serene world) (hchange : ∀ mp : ManagedProcess, mp.Clocked → (change mp).Clocked) :
    Serene (world.update i change) :=
  ⟨h.up, h.clocked.of_update rfl rfl hchange⟩

theorem startProcess_serene (i : Nat) {world : World} (h : Serene world) :
    Serene (startProcess i world) := by
  unfold startProcess
  refine onEntry_serene i h fun mp hentry _ => ?_
  have hcleared : Serene (killZombie mp world) := by
    have hsame := killZombie_frame (fun later => (later.mode, later.startTime, later.processes))
      (fun _ => rfl) (fun _ _ => rfl) mp world
    simp only [Prod.mk.injEq] at hsame
    exact ⟨hsame.1.trans h.up, h.clocked.of_same hsame.2.1 hsame.2.2⟩
  generalize killZombie mp world = cleared at hcleared
  have hread := interact_serene hcleared
  have hfailed : Serene (forkFailed i cleared.beat.error cleared.interact.interact) :=
    ⟨hread.up, (interact_serene hread).clocked.forkFailed i _⟩
  dsimp only
  split
  next => exact hfailed
  next pid _ =>
    split
    next =>
      have hbegun : Serene (if mp.name = odin then cleared.interact.interact.interact
          else cleared.interact.interact) := by
        split
        · exact interact_serene (interact_serene hread)
        · exact interact_serene hread
      exact ⟨(forkSucceeded_mode ..).trans hbegun.up,
        hbegun.clocked.forkSucceeded i mp.name pid rfl⟩
    next => exact hfailed

theorem restartEntry_serene (i : Nat) {world : World} (h : Serene world) :
    Serene (restartEntry i world) := by
  have hcounted : Serene (countRestart i world) :=
    ⟨h.up, h.clocked.of_update rfl rfl fun _ hmp => ⟨hmp.start, hmp.crash⟩⟩
  exact update_serene i (startProcess_serene i hcounted) fun _ hmp => ⟨hmp.start, hmp.crash⟩

theorem checkStarted_serene {world : World} (h : Serene world) : Serene (checkStarted world) := by
  refine andThen_serene (each_keeps Serene (fun i later h => ?_) _ h) fun h =>
    each_keeps Serene (fun i later h => ?_) _ (interact_serene h)
  · refine onEntry_serene i h fun mp hentry hmp => ?_
    split
    next => exact h
    next hstarting =>
      split
      next => exact h
      next =>
        split
        next => exact ⟨h.up, h.clocked.markRunning hentry (not_not.mp hstarting)⟩
        next => exact h
  · refine onEntry_serene i h fun mp _ hmp => ?_
    split
    next => exact h
    next hrunning =>
      split
      next => exact h
      next =>
        rw [clock_sub? _ (hmp.start (Or.inr (not_not.mp hrunning)))]
        dsimp only
        split
        · exact ⟨h.up, h.clocked.of_update rfl rfl fun _ hmp => ⟨hmp.start, hmp.crash⟩⟩
        · exact h

theorem checkOdinHealth_serene {world : World} (h : Serene world) :
    Serene (checkOdinHealth world) := by
  unfold checkOdinHealth
  split
  next => exact h
  next i _ =>
    refine onEntry_serene i h fun mp _ _ => ?_
    split
    next => exact h
    next =>
      split
      next => exact h
      next =>
        split
        next => exact h
        next =>
          dsimp only
          split
          next =>
            split
            · exact ⟨h.up, h.clocked.of_same rfl rfl⟩
            · exact interact_serene h
          next =>
            split
            · exact ⟨h.up, h.clocked.of_update rfl rfl fun _ hmp => ⟨hmp.start, hmp.crash⟩⟩
            · exact ⟨h.up, h.clocked.of_same rfl rfl⟩

theorem handleRestarts_serene {world : World} (h : Serene world) :
    Serene (handleRestarts world) := by
  refine each_keeps Serene (fun i later h => ?_) _ (interact_serene h)
  refine onEntry_serene i h fun mp _ hmp => ?_
  split
  next => exact h
  next hcrashed =>
    split
    next => exact h
    next =>
      rw [clock_sub? _ (hmp.crash (not_not.mp hcrashed))]
      dsimp only
      split
      · exact restartEntry_serene i h
      · exact h

theorem handlePending_serene {world : World} (h : Serene world) :
    Serene (handlePending world) := by
  refine each_keeps Serene (fun i later h => ?_) _ h
  refine onEntry_serene i h fun mp _ _ => ?_
  split
  next => exact h
  next =>
    split
    next => exact h
    next =>
      split
      next => exact startProcess_serene i h
      next =>
        dsimp only
        split
        · exact startProcess_serene i (interact_serene h)
        · exact interact_serene h

theorem collectStatuses_some {entries : List ManagedProcess}
    (hentries : ∀ mp ∈ entries, mp.Clocked) (done : List ProcessStatus) {world : World}
    (hup : world.mode = .up) :
    ∃ statuses later, collectStatuses entries done world = (some statuses, later) ∧
      later.mode = .up := by
  induction entries generalizing done world with
  | nil => exact ⟨done, world, rfl, hup⟩
  | cons mp rest ih =>
      rw [List.forall_mem_cons] at hentries
      have hread : (if mp.state = .running then world.interact else world).mode = .up := by
        split <;> exact hup
      unfold collectStatuses
      generalize (if mp.state = .running then world.interact else world) = read at hread ⊢
      have hstatus : ∃ status, processStatus mp read = some status := by
        unfold processStatus
        dsimp only
        split
        next hrunning =>
          rw [clock_sub? _ (hentries.1.start (Or.inr hrunning))]
          exact ⟨_, rfl⟩
        next => exact ⟨_, rfl⟩
      obtain ⟨status, hstatus⟩ := hstatus
      dsimp only
      rw [hstatus]
      exact ih hentries.2 _ hread

theorem publishStatus_up {world : World} (h : Serene world) : (publishStatus world).mode = .up := by
  have hread := interact_serene h
  unfold publishStatus
  dsimp only
  rw [clock_sub? _ hread.clocked.start]
  dsimp only
  generalize ([_] : List ProcessStatus) = own
  obtain ⟨statuses, later, hcollect, hup⟩ :=
    collectStatuses_some hread.clocked.entries own hread.up
  rw [hcollect]
  exact hup

end World

end AcflyRos.Daemon

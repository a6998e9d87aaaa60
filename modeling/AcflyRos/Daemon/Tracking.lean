import Mathlib.Data.List.Nodup
import AcflyRos.Daemon.Steps

/-! # Every child is tracked

`handle_restart` waits until its entry has left STOPPING, whereas `handle_start`
resets an entry in STOPPING at once: the pid of the child that is still shutting
down is then overwritten, or kept by an entry that counts as crashed. In runs
without such a request no child is ever lost.
-/

namespace AcflyRos.Daemon

open AcflyRos.Transition AcflyRos.Table

/-- No child is forgotten: a child that was not sent SIGKILL is the pid of exactly
one entry, which has no other child, and an entry has a pid exactly in the states
in which it has a child. -/
structure TracksChildren (world : World) : Prop where
  child : ∀ child ∈ world.children, child.killed = false →
    ∃! i : Nat, ∃ mp : ManagedProcess, world.processes[i]? = some mp ∧ mp.pid = child.pid
  single : ∀ mp ∈ world.processes, ∀ first ∈ world.children, ∀ second ∈ world.children,
    first.pid = mp.pid → second.pid = mp.pid → first = second
  running : ∀ mp ∈ world.processes,
    0 < mp.pid ↔ mp.state = .starting ∨ mp.state = .running ∨ mp.state = .stopping
  idle : ∀ mp ∈ world.processes,
    mp.state = .pending ∨ mp.state = .restarting ∨ mp.state = .stopped → mp.pid = -1

/-- Every child with one of those pids, unless it was sent SIGKILL, is the child of
some entry. -/
def Owned (within : Pid → Prop) (world : World) : Prop :=
  ∀ child ∈ world.children, child.killed = false → within child.pid →
    ∃ mp ∈ world.processes, mp.pid = child.pid

/-- An entry has a child only in the states in which it should. -/
def IdleWithout (world : World) : Prop :=
  ∀ mp ∈ world.processes, ¬ mp.state.live → mp.pid = -1

/-- What tracking adds to `Sound`. -/
structure Tracked (world : World) : Prop where
  idle : IdleWithout world
  owned : Owned (fun _ => True) world

theorem Tracked.tracksChildren {world : World} (htracked : Tracked world) (hsound : Sound world) :
    TracksChildren world where
  child := by
    intro child hchild hkilled
    obtain ⟨mp, hmp, hpid⟩ := htracked.owned child hchild hkilled trivial
    obtain ⟨i, hi⟩ := List.mem_iff_getElem?.mp hmp
    refine ⟨i, ⟨mp, hi, hpid⟩, ?_⟩
    rintro j ⟨other, hj, hother⟩
    have hlive : 0 < other.pid := by
      rw [hother]
      exact hsound.childPos _ (List.mem_map_of_mem hchild)
    exact hsound.pidDistinct j i other mp hj hi hlive (hother.trans hpid.symm)
  single := by
    intro mp _ first hfirst second hsecond hone htwo
    exact List.inj_on_of_nodup_map hsound.childNodup hfirst hsecond (hone.trans htwo.symm)
  running := by
    intro mp hmp
    rw [← ProcessState.live_iff]
    refine ⟨fun hpos => ?_, hsound.pidLive mp hmp⟩
    by_contra hidle
    rw [htracked.idle mp hmp hidle] at hpos
    exact absurd hpos (by decide)
  idle := by
    intro mp hmp hstate
    apply htracked.idle mp hmp
    rcases hstate with hstate | hstate | hstate <;> simp [hstate, ProcessState.live]

/-- No child has been added, and none has been spared a SIGKILL. -/
def World.NoNewChild (world next : World) : Prop :=
  ∀ child ∈ next.children, child.killed = false →
    ∃ old ∈ world.children, old.killed = false ∧ old.pid = child.pid

theorem World.noNewChild_of_eq {world next : World} (hchildren : next.children = world.children) :
    world.NoNewChild next :=
  fun child hchild hkilled => ⟨child, hchildren ▸ hchild, hkilled, rfl⟩

theorem World.noNewChild_interact (world : World) : world.NoNewChild world.interact := by
  intro child hchild hkilled
  obtain ⟨old, hold, rfl⟩ := List.mem_map.mp hchild
  rw [Child.pass_killed] at hkilled
  exact ⟨old, hold, hkilled, (Child.pass_pid _ _).symm⟩

/-- Whoever is still not killed is another child. -/
theorem World.markKilled_spares {world : World} {pid : Pid} {child : Child}
    (hchild : child ∈ (world.markKilled pid).children) (hkilled : child.killed = false) :
    child ∈ world.children ∧ child.pid ≠ pid := by
  obtain ⟨old, hold, rfl⟩ := List.mem_map.mp hchild
  split at hkilled
  next => cases hkilled
  next hpid =>
    rw [if_neg hpid]
    exact ⟨hold, hpid⟩

theorem World.noNewChild_markKilled (world : World) (pid : Pid) :
    world.NoNewChild (world.markKilled pid) :=
  fun child hchild hkilled => ⟨child, (markKilled_spares hchild hkilled).1, hkilled, rfl⟩

theorem World.noNewChild_forget (world : World) (pid : Pid) :
    world.NoNewChild (world.forget pid) :=
  fun child hchild hkilled => ⟨child, (List.mem_filter.mp hchild).1, hkilled, rfl⟩

namespace Owned

variable {within : Pid → Prop} {world next : World} {i : Nat}
  {change : ManagedProcess → ManagedProcess}

theorem of_same (howned : Owned within world) (hprocesses : next.processes = world.processes)
    (hchildren : world.NoNewChild next) : Owned within next := by
  intro child hchild hkilled hwithin
  obtain ⟨old, hold, hspared, hpid⟩ := hchildren child hchild hkilled
  rw [hprocesses, ← hpid]
  exact howned old hold hspared (hpid ▸ hwithin)

/-- One entry changes, but not its pid. -/
theorem of_update (howned : Owned within world)
    (hprocesses : next.processes = world.processes.modify i change)
    (hchildren : world.NoNewChild next) (hpid : ∀ mp, (change mp).pid = mp.pid) :
    Owned within next := by
  intro child hchild hkilled hwithin
  obtain ⟨old, hold, hspared, hsame⟩ := hchildren child hchild hkilled
  rw [hprocesses]
  apply exists_modify (hsame ▸ howned old hold hspared (hsame ▸ hwithin))
  intro mp _ hmp
  rw [hpid, hmp]

/-- An entry lets go of a child that has been reaped or killed. -/
theorem of_release (howned : Owned within world) {mp : ManagedProcess}
    (hentry : world.processes[i]? = some mp)
    (hprocesses : next.processes = world.processes.modify i change)
    (hchildren : world.NoNewChild next)
    (hgone : ∀ child ∈ next.children, child.killed = false → child.pid ≠ mp.pid) :
    Owned within next := by
  intro child hchild hkilled hwithin
  obtain ⟨old, hold, hspared, hsame⟩ := hchildren child hchild hkilled
  rw [hprocesses]
  apply exists_modify (hsame ▸ howned old hold hspared (hsame ▸ hwithin))
  intro same hsame hown
  cases hentry.symm.trans hsame
  exact absurd hown.symm (hgone child hchild hkilled)

/-- An entry without a child takes a new one. -/
theorem of_fork (howned : Owned within world) (hsound : Sound world) {mp : ManagedProcess}
    (hentry : world.processes[i]? = some mp) (hidle : mp.pid = -1) {born : Child}
    (hprocesses : next.processes = world.processes.modify i change)
    (hchildren : next.children = world.children ++ [born])
    (hpid : ∀ mp, (change mp).pid = born.pid) : Owned within next := by
  intro child hchild hkilled hwithin
  rw [hchildren] at hchild
  rw [hprocesses]
  rcases List.mem_append.mp hchild with hold | hnew
  · apply exists_modify (howned child hold hkilled hwithin)
    intro same hsame hown
    cases hentry.symm.trans hsame
    have hpos := hsound.childPos _ (List.mem_map_of_mem hold)
    rw [← hown, hidle] at hpos
    exact absurd hpos (by decide)
  · rw [List.mem_singleton.mp hnew]
    exact ⟨_, List.mem_of_getElem? (getElem?_modify_self hentry), hpid mp⟩

end Owned

/-- An entry that may be started is in a state without one. -/
theorem World.SpawnGuard.not_live {world : World} {mp : ManagedProcess} {kind : Kind}
    (hguard : world.SpawnGuard mp kind) : ¬ mp.state.live := by
  cases kind with
  | advance =>
      obtain ⟨_, hstate | ⟨hstate, _⟩⟩ := hguard <;> simp [hstate, ProcessState.live]
  | ungated => simp [hguard.2.1, ProcessState.live]
  | manual => simp [show mp.state = .pending from hguard, ProcessState.live]
  | _ => exact False.elim hguard

/-- No child is lost unless an entry that has one takes another. -/
theorem Act.owned {within : Pid → Prop} {kind : Kind} {world next : World}
    (hact : Act kind world next) (hsound : Sound world)
    (hspawn : ∀ mp ∈ world.processes, world.SpawnGuard mp kind → mp.pid = -1)
    (howned : Owned within world) : Owned within next := by
  cases hact with
  | env => exact howned.of_same rfl world.noNewChild_interact
  | zombieKill _ pid => exact howned.of_same rfl (world.noNewChild_markKilled pid)
  | fork _ _ i mp pid startTime hentry _ hguard =>
      exact howned.of_fork hsound hentry (hspawn mp (List.mem_of_getElem? hentry) hguard)
        (world.forkSucceeded_processes i mp.name pid startTime)
        (world.forkSucceeded_children i mp.name pid startTime) fun _ => rfl
  | reset _ i mp =>
      apply howned.of_update (world.resetForStart_processes i mp.name)
        (World.noNewChild_of_eq ?_) fun _ => rfl
      simp
  | resetEntries =>
      intro child hchild hkilled hwithin
      obtain ⟨mp, hmp, hown⟩ := howned child hchild hkilled hwithin
      exact ⟨_, List.mem_map_of_mem hmp, hown⟩
  | forceKill _ i mp hentry =>
      exact howned.of_release hentry rfl (world.noNewChild_markKilled mp.pid)
        fun child hchild hkilled => (World.markKilled_spares hchild hkilled).2
  | reapUnmanaged _ child => exact howned.of_same rfl (world.noNewChild_forget child.pid)
  | reapStopped _ i mp child status hentry hpid | reapCrashed _ i mp child status hentry hpid =>
      refine howned.of_release hentry rfl (world.noNewChild_forget child.pid) ?_
      intro other hother _
      rw [hpid]
      simpa using (List.mem_filter.mp hother).2
  | giveUp _ i mp => exact howned.of_update rfl (world.noNewChild_markKilled mp.pid) fun _ => rfl
  | healthKill _ i mp => exact howned.of_same rfl (world.noNewChild_markKilled mp.pid)
  | forkFail | requestStop | markRunning | permitRestart | resetBackoff | countRestart
  | growBackoff => exact howned.of_update rfl (World.noNewChild_of_eq rfl) fun _ => rfl
  | _ => exact howned.of_same rfl (World.noNewChild_of_eq rfl)

/-- An action that resets no stopping entry leaves a pid only where one belongs. -/
theorem Act.idleWithout {kind : Kind} {world next : World} (hact : Act kind world next)
    (hkept : ∀ i, kind ≠ .displace i) (hidle : IdleWithout world) : IdleWithout next := by
  unfold IdleWithout at hidle ⊢
  have hentry : ∀ {i : Nat} {mp : ManagedProcess}, world.processes[i]? = some mp →
      ¬ mp.state.live → mp.pid = -1 := fun hmp => hidle _ (List.mem_of_getElem? hmp)
  cases hact with
  | fork _ _ i mp pid startTime =>
      rw [world.forkSucceeded_processes i mp.name pid startTime]
      exact forall_modify hidle fun _ _ hstate => absurd trivial hstate
  | forkFail _ _ i mp _ hmp hguard =>
      refine forall_modify hidle fun same hsame _ => ?_
      cases hmp.symm.trans hsame
      exact show mp.pid = -1 from hentry hmp hguard.not_live
  | reset _ i mp hmp hstate =>
      have hdown : ¬ mp.state.live := by
        have hstopping : mp.state ≠ .stopping := fun hstopping => hkept i (if_pos hstopping)
        cases hmp : mp.state <;> simp [hmp, ProcessState.live] at hstate hstopping ⊢
      rw [world.resetForStart_processes i mp.name]
      refine forall_modify hidle fun same hsame _ => ?_
      cases hmp.symm.trans hsame
      exact show mp.pid = -1 from hentry hmp hdown
  | resetEntries _ hstate =>
      intro after hafter _
      obtain ⟨mp, hmp, rfl⟩ := List.mem_map.mp hafter
      apply hidle mp hmp
      rcases hstate mp hmp with hstate | hstate | ⟨hstate, _⟩ <;> simp [hstate, ProcessState.live]
  | requestStop | markRunning => exact forall_modify hidle fun _ _ hstate => absurd trivial hstate
  | forceKill | reapStopped | reapCrashed => exact forall_modify hidle fun _ _ _ => rfl
  | permitRestart | resetBackoff | countRestart | growBackoff | giveUp =>
      exact forall_modify hidle fun mp hmp hstate => show mp.pid = -1 from hentry hmp hstate
  | _ => exact hidle

/-- Every action but the reset of a stopping entry keeps the children tracked. -/
theorem Act.tracked {kind : Kind} {world next : World} (hact : Act kind world next)
    (hkept : ∀ i, kind ≠ .displace i) (hsound : Sound world) (htracked : Tracked world) :
    Tracked next where
  idle := hact.idleWithout hkept htracked.idle
  owned := hact.owned hsound (fun mp hmp hguard => htracked.idle mp hmp hguard.not_live)
    htracked.owned

theorem tracked_initial (config : Config) (nodes : List ProcessNode) (ros steady : Int) :
    Tracked (initial config nodes ros steady) where
  idle _ hmp _ := (initial_entries hmp).1
  owned _ hchild := absurd hchild List.not_mem_nil

/-- No start request finds its entry in STOPPING. -/
def NoDisplacement (world : World) (label : Label) : Prop := ∀ i, ¬ DisplacesAt world label i

theorem run_tracked {world : World} {labels : List Label} (hready : Ready world)
    (htracked : Tracked world) (hlabels : EveryStep step NoDisplacement world labels) :
    Tracked (run step world labels) := by
  refine run_keeps_acts Tracked ?_ hready htracked hlabels
  intro world label kind state next _ hclean hkind hsound hstate hact
  refine hact.tracked (fun i hdisplace => ?_) hsound hstate
  subst hdisplace
  exact hclean i hkind

/-- In every run in which no start request finds its entry in STOPPING, every child
is tracked in every state. -/
theorem run_tracksChildren (config : Config) (nodes : List ProcessNode) (ros steady : Int)
    (labels : List Label)
    (hlabels : EveryStep step NoDisplacement (initial config nodes ros steady) labels) :
    TracksChildren (run step (initial config nodes ros steady) labels) :=
  (run_tracked (ready_initial config nodes ros steady) (tracked_initial config nodes ros steady)
    hlabels).tracksChildren (run_ready labels (ready_initial config nodes ros steady)).sound

/-- An entry without dependencies, as in the YAML file. -/
def mavros : ProcessNode :=
  { name := "mavros", command := "ros2", args := ["launch", "px4.launch"] }

/-- A tick that forks for the only entry. -/
def forkingTick (pid : Pid) : Label :=
  ⟨.timer, [{}, {}, {}, {}, {}, { fork := some pid }]⟩

/-- A start request while the child 100 is still shutting down. `kill_zombie` finds
it in `/proc`, but spares it as a managed child. -/
def displacingRun : List Label :=
  [forkingTick 100, ⟨.timer, []⟩, ⟨.stop "mavros", []⟩,
    ⟨.start "mavros", [{ procfs := [(100, "ros2 launch px4.launch")] }, { fork := some 102 }]⟩]

set_option maxRecDepth 4000 in
/-- The child 100 is neither reaped nor killed, and no entry has its pid. -/
theorem not_tracksChildren_displacingRun :
    ¬ ∀ (config : Config) (nodes : List ProcessNode) (ros steady : Int) (labels : List Label),
      TracksChildren (run step (initial config nodes ros steady) labels) := by
  intro htracks
  obtain ⟨i, ⟨mp, hentry, hpid⟩, _⟩ := (htracks {} [mavros] 0 0 displacingRun).child
    ⟨100, 0, "mavros", none, false⟩ (by decide) rfl
  have hother : ∀ mp ∈ (run step (initial {} [mavros] 0 0) displacingRun).processes,
      mp.pid ≠ 100 := by decide
  exact hother mp (List.mem_of_getElem? hentry) hpid

theorem noDisplacement_of_settled {world : World}
    (hsettled : ∀ mp ∈ world.processes, mp.state ≠ .stopping) (label : Label) :
    NoDisplacement world label := by
  rintro i ⟨_, mp, _, _, hentry, hstate⟩
  exact hsettled mp (List.mem_of_getElem? hentry) hstate

theorem noDisplacement_of_request {world : World} {label : Label}
    (hrequest : ∀ name, label.request ≠ .start name) : NoDisplacement world label := by
  rintro i ⟨name, _, hstart, _⟩
  exact hrequest name hstart

/-- The same requests, but the start request comes after the child has been reaped. -/
def patientRun : List Label :=
  [forkingTick 100, ⟨.timer, []⟩, ⟨.stop "mavros", []⟩,
    ⟨.timer, [{ exits := [(100, .exited 0)] }]⟩, ⟨.start "mavros", [{}, { fork := some 102 }]⟩]

set_option maxRecDepth 4000 in
theorem tracksChildren_patientRun :
    TracksChildren (run step (initial {} [mavros] 0 0) patientRun) := by
  apply run_tracksChildren
  refine ⟨noDisplacement_of_request ?_, noDisplacement_of_request ?_,
    noDisplacement_of_request ?_, noDisplacement_of_request ?_,
    noDisplacement_of_settled ?_ _, trivial⟩
  · exact fun _ hstart => by cases hstart
  · exact fun _ hstart => by cases hstart
  · exact fun _ hstart => by cases hstart
  · exact fun _ hstart => by cases hstart
  · decide

end AcflyRos.Daemon

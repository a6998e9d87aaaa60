import AcflyRos.Daemon.Callbacks

/-! # What holds in every reachable state of the supervisor

These facts need no condition on the run: they survive even a start request that
displaces a child which has been asked to stop.
-/

namespace AcflyRos.Daemon

open AcflyRos.Transition AcflyRos.Table

/-- The pids the kernel still knows as children of the supervisor. -/
def World.childPids (world : World) : List Pid := world.children.map (·.pid)

theorem World.childPids_interact (world : World) : world.interact.childPids = world.childPids := by
  simp [childPids, interact, Function.comp_def]

theorem World.childPids_markKilled (world : World) (pid : Pid) :
    (world.markKilled pid).childPids = world.childPids := by
  simp only [childPids, markKilled, List.map_map]
  apply List.map_congr_left
  intro child _
  simp only [Function.comp_apply]
  split <;> rfl

theorem World.childPids_forget (world : World) (pid : Pid) :
    (world.forget pid).childPids = world.childPids.filter (· ≠ pid) := by
  simp only [childPids, forget, List.filter_map]
  rfl

/-! ## Which child holds a pid -/

namespace World

variable {world next : World}

/-- An exit changes neither which child holds a pid nor its serial number. -/
theorem serialOf_interact (world : World) (pid : Pid) :
    world.interact.serialOf pid = world.serialOf pid := by
  simp only [serialOf, interact, List.find?_map, Option.map_map, Function.comp_def,
    Child.pass_pid, Child.pass_serial]

theorem serialOf_markKilled (world : World) (killed pid : Pid) :
    (world.markKilled killed).serialOf pid = world.serialOf pid := by
  have hmark : ∀ child : Child,
      (if child.pid = killed then { child with killed := true } else child).pid = child.pid ∧
      (if child.pid = killed then { child with killed := true } else child).serial =
        child.serial := fun child => by split <;> exact ⟨rfl, rfl⟩
  simp only [serialOf, markKilled, List.find?_map, Option.map_map, Function.comp_def, hmark]

theorem serialOf_forget (world : World) {gone pid : Pid} (hother : pid ≠ gone) :
    (world.forget gone).serialOf pid = world.serialOf pid := by
  simp only [serialOf, forget, List.find?_filter]
  congr 2
  funext child
  by_cases hchild : child.pid = pid
  · simp [hchild, hother]
  · simp [hchild]

theorem serialOf_append {born : List Child} {pid : Pid} {serial : Nat}
    (hchildren : next.children = world.children ++ born)
    (hserial : world.serialOf pid = some serial) : next.serialOf pid = world.serialOf pid := by
  obtain ⟨child, hfind, _⟩ := Option.map_eq_some_iff.mp hserial
  simp only [serialOf, hchildren, List.find?_append, hfind, Option.some_or]

theorem serialOf_isSome {pid : Pid} (hchild : pid ∈ world.childPids) :
    ∃ serial, world.serialOf pid = some serial := by
  obtain ⟨child, hmem, hpid⟩ := List.mem_map.mp hchild
  cases hfind : world.children.find? (·.pid == pid) with
  | none =>
      have hnone := List.find?_eq_none.mp hfind child hmem
      exact absurd hpid (by simpa using hnone)
  | some found => exact ⟨found.serial, by rw [serialOf, hfind, Option.map_some]⟩

/-- A child that leaves the table is no other entry's child. -/
theorem serialOf_forget_other {i j : Nat} {mp other : ManagedProcess} {child : Child}
    (hdistinct : KeysDistinct (·.pid) (0 < ·) world.processes)
    (hentry : world.processes[i]? = some mp) (hpid : mp.pid = child.pid) (hij : i ≠ j)
    (hother : world.processes[j]? = some other) (hlive : 0 < other.pid) :
    (world.forget child.pid).serialOf other.pid = world.serialOf other.pid := by
  apply serialOf_forget
  intro hsame
  exact hij (hdistinct j i other mp hother hentry hlive (hsame.trans hpid.symm)).symm

end World

/-- A state in which an entry has a child. -/
def ProcessState.live : ProcessState → Prop
  | .starting | .running | .stopping => True
  | _ => False

theorem ProcessState.live_iff (state : ProcessState) :
    state.live ↔ state = .starting ∨ state = .running ∨ state = .stopping := by
  cases state <;> simp [live]

structure Sound (world : World) : Prop where
  pidSign : ∀ mp ∈ world.processes, mp.pid = -1 ∨ 0 < mp.pid
  pidLive : ∀ mp ∈ world.processes, mp.state.live → 0 < mp.pid
  stoppingFlag : ∀ mp ∈ world.processes, mp.state = .stopping → mp.stopping = true
  pidDistinct : KeysDistinct (·.pid) (0 < ·) world.processes
  hasChild : ∀ mp ∈ world.processes, 0 < mp.pid → mp.pid ∈ world.childPids
  childPos : ∀ pid ∈ world.childPids, 0 < pid
  childNodup : world.childPids.Nodup

namespace Sound

variable {world next : World} {i : Nat} {change : ManagedProcess → ManagedProcess}

/-- Neither an entry nor a pid changes. -/
theorem of_same (hsound : Sound world) (hprocesses : next.processes = world.processes)
    (hchildren : next.childPids = world.childPids) : Sound next where
  pidSign := hprocesses ▸ hsound.pidSign
  pidLive := hprocesses ▸ hsound.pidLive
  stoppingFlag := hprocesses ▸ hsound.stoppingFlag
  pidDistinct := hprocesses ▸ hsound.pidDistinct
  hasChild := by rw [hprocesses, hchildren]; exact hsound.hasChild
  childPos := hchildren ▸ hsound.childPos
  childNodup := hchildren ▸ hsound.childNodup

/-- One entry changes, but not its pid. -/
theorem of_update (hsound : Sound world)
    (hprocesses : next.processes = world.processes.modify i change)
    (hchildren : next.childPids = world.childPids)
    (hpid : ∀ mp, (change mp).pid = mp.pid)
    (hlive : ∀ mp, world.processes[i]? = some mp → (change mp).state.live → 0 < mp.pid)
    (hflag : ∀ mp, world.processes[i]? = some mp → (change mp).state = .stopping →
      (change mp).stopping = true) : Sound next where
  pidSign := by
    rw [hprocesses]
    refine forall_modify hsound.pidSign fun mp hentry => ?_
    rw [hpid]
    exact hsound.pidSign mp (List.mem_of_getElem? hentry)
  pidLive := by
    rw [hprocesses]
    refine forall_modify hsound.pidLive fun mp hentry hstate => ?_
    rw [hpid]
    exact hlive mp hentry hstate
  stoppingFlag := hprocesses ▸ forall_modify hsound.stoppingFlag hflag
  pidDistinct := hprocesses ▸ hsound.pidDistinct.modify_same hpid
  hasChild := by
    rw [hprocesses, hchildren]
    refine forall_modify hsound.hasChild fun mp hentry => ?_
    rw [hpid]
    exact hsound.hasChild mp (List.mem_of_getElem? hentry)
  childPos := hchildren ▸ hsound.childPos
  childNodup := hchildren ▸ hsound.childNodup

/-- An entry lets go of its child, which may leave the table. -/
theorem of_release (hsound : Sound world) {mp : ManagedProcess}
    (hentry : world.processes[i]? = some mp)
    (hprocesses : next.processes = world.processes.modify i change)
    (hpid : ∀ mp, (change mp).pid = -1) (hstate : ∀ mp, ¬ (change mp).state.live)
    (hchildren : next.childPids.Sublist world.childPids)
    (hkept : ∀ pid ∈ world.childPids, pid ≠ mp.pid → pid ∈ next.childPids) : Sound next where
  pidSign := hprocesses ▸ forall_modify hsound.pidSign fun mp _ => Or.inl (hpid mp)
  pidLive := hprocesses ▸ forall_modify hsound.pidLive fun mp _ hlive => absurd hlive (hstate mp)
  stoppingFlag := by
    rw [hprocesses]
    refine forall_modify hsound.stoppingFlag fun mp _ hstopping => absurd ?_ (hstate mp)
    rw [hstopping]
    trivial
  pidDistinct := hprocesses ▸ hsound.pidDistinct.modify_dead hpid (by decide)
  hasChild := by
    intro other hother hlive
    rw [hprocesses] at hother
    obtain ⟨j, hj⟩ := List.mem_iff_getElem?.mp hother
    rcases getElem?_modify_cases hj with ⟨_, mp', _, rfl⟩ | ⟨hij, hj⟩
    · rw [hpid] at hlive
      exact absurd hlive (by decide)
    · refine hkept _ (hsound.hasChild other (List.mem_of_getElem? hj) hlive) ?_
      intro hsame
      exact hij (hsound.pidDistinct j i other mp hj hentry hlive hsame).symm
  childPos := fun pid hpid => hsound.childPos pid (hchildren.subset hpid)
  childNodup := hsound.childNodup.sublist hchildren

/-- An entry takes a new child. -/
theorem of_fork (hsound : Sound world) {pid : Pid} (hfresh : world.fresh pid)
    (hprocesses : next.processes = world.processes.modify i change)
    (hpid : ∀ mp, (change mp).pid = pid) (hstate : ∀ mp, (change mp).state = .starting)
    (hchildren : next.childPids = world.childPids ++ [pid]) : Sound next := by
  have hunused : pid ∉ world.childPids := by
    intro hmem
    obtain ⟨child, hchild, hsame⟩ := List.mem_map.mp hmem
    exact hfresh.2.2 child hchild hsame
  have hother : ∀ mp ∈ world.processes, mp.pid ≠ pid := by
    intro mp hmp hsame
    exact hunused (hsame ▸ hsound.hasChild mp hmp (hsame ▸ hfresh.1))
  refine ⟨?_, ?_, ?_, ?_, ?_, ?_, ?_⟩
  · rw [hprocesses]
    refine forall_modify hsound.pidSign fun mp _ => Or.inr ?_
    rw [hpid]
    exact hfresh.1
  · rw [hprocesses]
    refine forall_modify hsound.pidLive fun mp _ _ => ?_
    rw [hpid]
    exact hfresh.1
  · rw [hprocesses]
    refine forall_modify hsound.stoppingFlag fun mp _ hstopping => ?_
    rw [hstate] at hstopping
    exact ProcessState.noConfusion hstopping
  · exact hprocesses ▸ hsound.pidDistinct.modify_fresh hpid hother
  · rw [hprocesses, hchildren]
    refine forall_modify (fun mp hmp hlive =>
      List.mem_append_left _ (hsound.hasChild mp hmp hlive)) fun mp _ _ => ?_
    rw [hpid]
    exact List.mem_append_right _ (List.mem_singleton_self pid)
  · intro other hmem
    rw [hchildren] at hmem
    rcases List.mem_append.mp hmem with hold | hnew
    · exact hsound.childPos other hold
    · rw [List.mem_singleton.mp hnew]
      exact hfresh.1
  · rw [hchildren, List.nodup_append]
    refine ⟨hsound.childNodup, List.pairwise_singleton _ pid, ?_⟩
    intro old hold new hnew
    rw [List.mem_singleton.mp hnew]
    exact fun hsame => hunused (hsame ▸ hold)

/-- An entry lets go of a child that leaves the table. -/
theorem of_reap (hsound : Sound world) {mp : ManagedProcess} {child : Child}
    (hentry : world.processes[i]? = some mp) (hown : mp.pid = child.pid)
    (hprocesses : next.processes = world.processes.modify i change)
    (hpid : ∀ mp, (change mp).pid = -1) (hstate : ∀ mp, ¬ (change mp).state.live)
    (hchildren : next.children = (world.forget child.pid).children) : Sound next := by
  have hpids : next.childPids = world.childPids.filter (· ≠ child.pid) := by
    rw [World.childPids, hchildren]
    exact world.childPids_forget child.pid
  refine hsound.of_release hentry hprocesses hpid hstate ?_ ?_
  · rw [hpids]
    exact List.filter_sublist
  · intro pid hmem hne
    rw [hpids, List.mem_filter]
    exact ⟨hmem, by simpa [hown] using hne⟩

/-- A child that no entry tracks leaves the table. -/
theorem forget (hsound : Sound world) {pid : Pid}
    (hforeign : ∀ mp ∈ world.processes, mp.pid ≠ pid) : Sound (world.forget pid) where
  pidSign := hsound.pidSign
  pidLive := hsound.pidLive
  stoppingFlag := hsound.stoppingFlag
  pidDistinct := hsound.pidDistinct
  hasChild := by
    intro mp hmp hlive
    rw [World.childPids_forget, List.mem_filter]
    exact ⟨hsound.hasChild mp hmp hlive, by simpa using hforeign mp hmp⟩
  childPos := by
    intro other hother
    rw [World.childPids_forget] at hother
    exact hsound.childPos other (List.mem_filter.mp hother).1
  childNodup := by
    rw [World.childPids_forget]
    exact hsound.childNodup.filter _

/-- Every entry is reset to a state without a child. -/
theorem of_map (hsound : Sound world) (hprocesses : next.processes = world.processes.map change)
    (hchildren : next.childPids = world.childPids) (hpid : ∀ mp, (change mp).pid = mp.pid)
    (hstate : ∀ mp, ¬ (change mp).state.live) : Sound next where
  pidSign := by
    rw [hprocesses]
    intro other hother
    obtain ⟨mp, hmp, rfl⟩ := List.mem_map.mp hother
    rw [hpid]
    exact hsound.pidSign mp hmp
  pidLive := by
    rw [hprocesses]
    intro other hother hlive
    obtain ⟨mp, _, rfl⟩ := List.mem_map.mp hother
    exact absurd hlive (hstate mp)
  stoppingFlag := by
    rw [hprocesses]
    intro other hother hstopping
    obtain ⟨mp, _, rfl⟩ := List.mem_map.mp hother
    refine absurd ?_ (hstate mp)
    rw [hstopping]
    trivial
  pidDistinct := hprocesses ▸ hsound.pidDistinct.map_same hpid
  hasChild := by
    rw [hprocesses, hchildren]
    intro other hother hlive
    obtain ⟨mp, hmp, rfl⟩ := List.mem_map.mp hother
    rw [hpid] at hlive ⊢
    exact hsound.hasChild mp hmp hlive
  childPos := hchildren ▸ hsound.childPos
  childNodup := hchildren ▸ hsound.childNodup

end Sound

/-- Every action keeps the entries and the kernel's table of children consistent. -/
theorem Act.sound {kind : Kind} {world next : World} (hact : Act kind world next)
    (hsound : Sound world) : Sound next := by
  cases hact with
  | env => exact hsound.of_same rfl world.childPids_interact
  | zombieKill _ pid => exact hsound.of_same rfl (world.childPids_markKilled pid)
  | fork _ _ i mp pid startTime _ hfresh =>
      exact hsound.of_fork hfresh (world.forkSucceeded_processes i mp.name pid startTime)
        (fun _ => rfl) (fun _ => rfl)
        (by simp [World.childPids, World.forkSucceeded_children])
  | forkFail =>
      exact hsound.of_update rfl rfl (fun _ => rfl) (fun _ _ hlive => False.elim hlive)
        (fun _ _ hstate => by cases hstate)
  | reset _ i mp =>
      refine hsound.of_update (world.resetForStart_processes i mp.name) ?_ (fun _ => rfl)
        (fun _ _ hlive => False.elim hlive) (fun _ _ hstate => by cases hstate)
      simp [World.childPids]
  | resetEntries => exact hsound.of_map rfl rfl (fun _ => rfl) (fun _ hlive => hlive)
  | requestStop _ i mp hentry hpid =>
      refine hsound.of_update rfl rfl (fun _ => rfl) (fun same hsame _ => ?_) (fun _ _ _ => rfl)
      cases hentry.symm.trans hsame
      exact hpid
  | forceKill _ i mp hentry =>
      have hpids : (world.forceKilled i mp).childPids = world.childPids :=
        world.childPids_markKilled mp.pid
      exact hsound.of_release hentry rfl (fun _ => rfl) (fun _ hlive => hlive)
        (by rw [hpids]) (fun pid hmem _ => by rw [hpids]; exact hmem)
  | reapUnmanaged _ child _ hforeign => exact hsound.forget hforeign
  | reapStopped _ i mp child status hentry hpid =>
      exact hsound.of_reap hentry hpid rfl (fun _ => rfl) (fun _ hlive => hlive) rfl
  | reapCrashed _ i mp child status hentry hpid =>
      exact hsound.of_reap hentry hpid rfl (fun _ => rfl) (fun _ hlive => hlive) rfl
  | markRunning _ i mp hentry hstate =>
      refine hsound.of_update rfl rfl (fun _ => rfl) (fun same hsame _ => ?_)
        (fun _ _ hstate => by cases hstate)
      cases hentry.symm.trans hsame
      exact hsound.pidLive mp (List.mem_of_getElem? hentry) (by rw [hstate]; trivial)
  | permitRestart | resetBackoff | countRestart | growBackoff =>
      exact hsound.of_update rfl rfl (fun _ => rfl)
        (fun mp hentry => hsound.pidLive mp (List.mem_of_getElem? hentry))
        (fun mp hentry => hsound.stoppingFlag mp (List.mem_of_getElem? hentry))
  | giveUp _ i mp =>
      exact hsound.of_update rfl (world.childPids_markKilled mp.pid) (fun _ => rfl)
        (fun mp hentry => hsound.pidLive mp (List.mem_of_getElem? hentry))
        (fun mp hentry _ => rfl)
  | healthKill _ i mp => exact hsound.of_same rfl (world.childPids_markKilled mp.pid)
  | _ => exact hsound.of_same rfl rfl

theorem acts_sound {allow : Kind → Prop} {world next : World} (hacts : Acts Act allow world next)
    (hsound : Sound world) : Sound next :=
  hacts.keeps Sound (fun _ _ _ _ hact => hact.sound) hsound

theorem initial_entries {config : Config} {nodes : List ProcessNode} {ros steady : Int}
    {mp : ManagedProcess} (hmp : mp ∈ (initial config nodes ros steady).processes) :
    mp.pid = -1 ∧ mp.state = .pending ∧ mp.stopping = false := by
  obtain ⟨node, _, rfl⟩ := List.mem_map.mp hmp
  exact ⟨rfl, rfl, rfl⟩

theorem sound_initial (config : Config) (nodes : List ProcessNode) (ros steady : Int) :
    Sound (initial config nodes ros steady) where
  pidSign mp hmp := Or.inl (initial_entries hmp).1
  pidLive mp hmp hlive := by
    rw [(initial_entries hmp).2.1] at hlive
    exact False.elim hlive
  stoppingFlag mp hmp hstate := by
    rw [(initial_entries hmp).2.1] at hstate
    cases hstate
  pidDistinct i j x y hx _ hlive := by
    dsimp only at hlive
    rw [(initial_entries (List.mem_of_getElem? hx)).1] at hlive
    exact absurd hlive (by decide)
  hasChild mp hmp hlive := by
    rw [(initial_entries hmp).1] at hlive
    exact absurd hlive (by decide)
  childPos pid hpid := absurd hpid List.not_mem_nil
  childNodup := List.nodup_nil

end AcflyRos.Daemon

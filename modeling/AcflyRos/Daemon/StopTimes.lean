import AcflyRos.Daemon.NamedStop
import AcflyRos.Daemon.Vitals

/-! # The time of a stop request

`check_stop_timeouts` subtracts the time of the request from a reading of the node clock, and the
difference of times of different clocks throws an exception. The flag goes with a time of the
node clock, except when the health check has set it to give up on odin1_driver.
-/

namespace AcflyRos.Daemon

open AcflyRos.Transition AcflyRos.Table

namespace World

/-- A stop flag goes with a request timed by the node clock, or is that of a child that the health
check has given up on. -/
def TimesStop (world : World) (mp : ManagedProcess) : Prop :=
  mp.stopping = true → mp.stopRequestTime.clockType = .rosTime ∨
    mp.state = .running ∧ ∃ serial, world.serialOf mp.pid = some serial ∧
      .healthKilled mp.pid (some serial) true ∈ world.log

def TimesStops (world : World) : Prop :=
  ∀ (i : Nat) (mp : ManagedProcess), world.processes[i]? = some mp → world.TimesStop mp

/-- The health check has killed no child for the last time that has not been reaped. -/
def GiveUpsReaped (world : World) : Prop :=
  ∀ pid serial, .healthKilled pid (some serial) true ∈ world.log →
    ∀ child ∈ world.children, child.serial ≠ serial

/-- Every stop flag goes with a request timed by the node clock. -/
def Timed (world : World) : Prop :=
  ∀ mp ∈ world.processes, mp.stopping = true → mp.stopRequestTime.clockType = .rosTime

end World

namespace World.TimesStops

variable {world next : World} {i : Nat} {change : ManagedProcess → ManagedProcess}

theorem timed (h : world.TimesStops) (hreaped : world.GiveUpsReaped) : world.Timed := by
  intro mp hmp hstopping
  obtain ⟨i, hi⟩ := List.mem_iff_getElem?.mp hmp
  rcases h i mp hi hstopping with htime | ⟨_, serial, hserial, hgave⟩
  · exact htime
  · obtain ⟨child, hchild, _, hsame⟩ := World.mem_serials_of_serialOf hserial
    exact absurd hsame (hreaped mp.pid serial hgave child hchild)

theorem extend {mp : ManagedProcess} (h : world.TimesStop mp)
    (hserial : ∀ serial, mp.state = .running → world.serialOf mp.pid = some serial →
      next.serialOf mp.pid = some serial)
    (hlog : world.log ⊆ next.log) : next.TimesStop mp := by
  intro hstopping
  rcases h hstopping with htime | ⟨hrunning, serial, hchild, hgave⟩
  · exact Or.inl htime
  · exact Or.inr ⟨hrunning, serial, hserial serial hrunning hchild, hlog hgave⟩

/-- No entry changes, and no child is reaped. -/
theorem of_same (h : world.TimesStops) (hprocesses : next.processes = world.processes)
    (hserial : ∀ pid, next.serialOf pid = world.serialOf pid) (hlog : world.log ⊆ next.log) :
    next.TimesStops := by
  intro i mp hmp
  rw [hprocesses] at hmp
  exact extend (h i mp hmp) (fun serial _ hchild => (hserial mp.pid).trans hchild) hlog

/-- One entry changes, and the children of the others stay. -/
theorem of_modify (h : world.TimesStops)
    (hprocesses : next.processes = world.processes.modify i change)
    (hserial : ∀ (j : Nat) (mp : ManagedProcess) (serial : Nat), i ≠ j →
      world.processes[j]? = some mp → mp.state = .running →
        world.serialOf mp.pid = some serial → next.serialOf mp.pid = some serial)
    (hlog : world.log ⊆ next.log)
    (hhere : ∀ mp, world.processes[i]? = some mp → next.TimesStop (change mp)) :
    next.TimesStops := by
  intro j after hafter
  rw [hprocesses] at hafter
  rcases getElem?_modify_cases hafter with ⟨rfl, mp, hmp, rfl⟩ | ⟨hij, hmp⟩
  · exact hhere mp hmp
  · exact extend (h j after hmp) (fun serial => hserial j after serial hij hmp) hlog

/-- One entry changes, and every child stays. -/
theorem of_update (h : world.TimesStops)
    (hprocesses : next.processes = world.processes.modify i change)
    (hserial : ∀ {pid serial}, world.serialOf pid = some serial → next.serialOf pid = some serial)
    (hlog : world.log ⊆ next.log)
    (hhere : ∀ mp, world.processes[i]? = some mp → next.TimesStop (change mp)) :
    next.TimesStops :=
  h.of_modify hprocesses (fun _ _ _ _ _ _ hchild => hserial hchild) hlog hhere

/-- An entry that is not RUNNING changes, but not its request. -/
theorem of_down (h : world.TimesStops) {mp : ManagedProcess}
    (hentry : world.processes[i]? = some mp) (hdown : mp.state ≠ .running)
    (hprocesses : next.processes = world.processes.modify i change)
    (hserial : ∀ {pid serial}, world.serialOf pid = some serial → next.serialOf pid = some serial)
    (hlog : world.log ⊆ next.log)
    (hrequest : (change mp).stopping = mp.stopping ∧
      (change mp).stopRequestTime = mp.stopRequestTime) : next.TimesStops := by
  refine h.of_update hprocesses hserial hlog fun same hsame hstopping => Or.inl ?_
  cases hentry.symm.trans hsame
  rw [hrequest.1] at hstopping
  rw [hrequest.2]
  exact (h i mp hentry hstopping).resolve_right fun hrunning => hdown hrunning.1

/-- The entry whose child is reaped is not flagged afterwards. -/
theorem of_reaped (h : world.TimesStops) (hsound : Sound world) {mp : ManagedProcess}
    {child : Child} (hentry : world.processes[i]? = some mp) (hpid : mp.pid = child.pid)
    (hprocesses : next.processes = world.processes.modify i change)
    (hserial : ∀ pid, next.serialOf pid = (world.forget child.pid).serialOf pid)
    (hlog : world.log ⊆ next.log) (hflag : (change mp).stopping = false) : next.TimesStops := by
  refine h.of_modify hprocesses (fun j other serial hij hother hrunning hchild => ?_) hlog
    fun same hsame hstopping => ?_
  · have hlive := hsound.pidLive other (List.mem_of_getElem? hother) (hrunning ▸ trivial)
    rw [hserial, World.serialOf_forget_other hsound.pidDistinct hentry hpid hij hother hlive]
    exact hchild
  · cases hentry.symm.trans hsame
    exact absurd (hstopping.symm.trans hflag) (by decide)

end World.TimesStops

theorem Act.timesStops {kind : Kind} {world next : World} (hact : Act kind world next)
    (hsound : Sound world) (h : world.TimesStops) : next.TimesStops := by
  have hpush : ∀ event : Event, world.log ⊆ event :: world.log :=
    fun event => List.subset_cons_self event world.log
  have hkeep : world.log ⊆ world.log := List.Subset.refl _
  have hmarked : ∀ {pid killed : Pid} {serial : Nat}, world.serialOf pid = some serial →
      (world.markKilled killed).serialOf pid = some serial :=
    fun hchild => (world.serialOf_markKilled _ _).trans hchild
  cases hact with
  | env => exact h.of_same rfl world.serialOf_interact hkeep
  | zombieKill _ pid => exact h.of_same rfl (world.serialOf_markKilled pid) (hpush _)
  | fork _ _ i mp pid startTime hentry _ hguard =>
      refine h.of_down hentry (fun hrunning => hguard.not_live (hrunning ▸ trivial))
        (world.forkSucceeded_processes i mp.name pid startTime) (fun hchild => ?_) ?_ ⟨rfl, rfl⟩
      · have hchildren := world.forkSucceeded_children i mp.name pid startTime
        exact (World.serialOf_append hchildren hchild).trans hchild
      · rw [world.forkSucceeded_log]
        exact hpush _
  | forkFail _ _ i mp _ hentry hguard =>
      exact h.of_down hentry (fun hrunning => hguard.not_live (hrunning ▸ trivial)) rfl
        (fun hchild => hchild) hkeep ⟨rfl, rfl⟩
  | reset _ i mp hentry hstate =>
      refine h.of_down hentry hstate.1 (world.resetForStart_processes i mp.name)
        (fun hchild => ?_) ?_ ⟨rfl, rfl⟩
      · simpa [World.serialOf] using hchild
      · simp
  | resetEntries _ hstate =>
      intro i after hafter hstopping
      simp only [World.resetEntries, World.note, List.getElem?_map,
        Option.map_eq_some_iff] at hafter
      obtain ⟨mp, hmp, rfl⟩ := hafter
      refine Or.inl ((h i mp hmp hstopping).resolve_right fun hrunning => ?_)
      rcases hstate mp (List.mem_of_getElem? hmp) with hdown | hdown | ⟨hdown, _⟩ <;>
        exact absurd (hrunning.1.symm.trans hdown) (by decide)
  | requestStop =>
      exact h.of_update rfl (fun hchild => hchild) (hpush _) fun _ _ _ => Or.inl rfl
  | forceKill =>
      exact h.of_update rfl hmarked (hpush _) fun _ _ hflag => by cases hflag
  | reapUnmanaged _ child _ hforeign =>
      intro i mp hmp
      refine World.TimesStops.extend (h i mp hmp) (fun serial _ hchild => ?_) hkeep
      exact (world.serialOf_forget (hforeign mp (List.mem_of_getElem? hmp))).trans hchild
  | reapStopped _ i mp child status hentry hpid =>
      exact h.of_reaped hsound hentry hpid rfl (fun _ => rfl) hkeep rfl
  | reapCrashed _ i mp child status hentry hpid _ _ hstopping =>
      exact h.of_reaped hsound hentry hpid rfl (fun _ => rfl) hkeep hstopping
  | markRunning _ i mp hentry hstate =>
      exact h.of_down hentry (by simp [hstate]) rfl (fun hchild => hchild) hkeep ⟨rfl, rfl⟩
  | permitRestart | resetBackoff | countRestart | growBackoff =>
      exact h.of_update rfl (fun hchild => hchild) hkeep fun mp hmp => h _ mp hmp
  | giveUp _ i mp _ hentry hstate _ hpid =>
      obtain ⟨serial, hserial⟩ := World.serialOf_isSome
        (hsound.hasChild mp (List.mem_of_getElem? hentry) hpid)
      refine h.of_update rfl hmarked (hpush _) fun same hsame _ => ?_
      cases hentry.symm.trans hsame
      refine Or.inr ⟨hstate, serial, hmarked hserial, ?_⟩
      rw [← hserial]
      exact List.mem_cons_self
  | publish | arm | armStale => exact h.of_same rfl (fun _ => rfl) (hpush _)
  | healthKill _ i mp => exact h.of_same rfl (world.serialOf_markKilled mp.pid) (hpush _)
  | _ => exact h.of_same rfl (fun _ => rfl) hkeep

theorem timesStops_initial (config : Config) (nodes : List ProcessNode) (ros steady : Int) :
    (initial config nodes ros steady).TimesStops := by
  intro i mp hmp hstopping
  rw [(initial_entries (List.mem_of_getElem? hmp)).2.2] at hstopping
  cases hstopping

theorem run_timesStops {world : World} (labels : List Label) (hready : Ready world)
    (h : world.TimesStops) : (run step world labels).TimesStops :=
  run_keeps_acts World.TimesStops (fun _ _ _ _ _ _ _ _ hsound h hact => hact.timesStops hsound h)
    hready h (everyStep_of_forall step (fun _ (_ : _ ∈ labels) => trivial) world)

theorem giveUpsReaped_of_verdicts {world : World} (hnone : true ∉ world.verdicts) :
    world.GiveUpsReaped := by
  intro pid serial hgave
  have hverdict : true ∈ world.verdicts := List.mem_filterMap.mpr ⟨_, hgave, rfl⟩
  exact absurd hverdict hnone

end AcflyRos.Daemon

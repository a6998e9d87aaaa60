import AcflyRos.Daemon.Exceptions
import AcflyRos.Daemon.Pacing

/-! # What a tick attends to

A tick goes over all entries in each of its steps. What it leaves is therefore only what was not
due yet: a child that exited while the tick ran, an entry whose child the tick has started itself,
and a PENDING entry that waits for a dependency or for a topic.
-/

namespace AcflyRos.Daemon

open AcflyRos.Transition AcflyRos.Table

/-! ## Reaping -/

namespace World

theorem length_forget_lt {world : World} {child : Child} (hchild : child ∈ world.children) :
    (world.forget child.pid).children.length < world.children.length :=
  List.length_filter_lt_length_iff_exists.mpr ⟨child, hchild, by simp⟩

theorem length_reapOne_lt {world : World} {child : Child} {status : WaitStatus}
    (hchild : child ∈ world.children) (hstatus : child.status = some status) :
    (reapOne child status world).children.length < world.children.length := by
  unfold reapOne
  split
  next => exact length_forget_lt hchild
  next i hfind =>
    obtain ⟨hlt, _⟩ := List.findIdx?_eq_some_iff_getElem.mp hfind
    rw [onEntry_some (List.getElem?_eq_getElem hlt)]
    split
    next => exact length_forget_lt hchild
    next =>
      have hlisted : child ∈ world.interact.children :=
        List.mem_map.mpr ⟨child, hchild, Child.pass_of_exited hstatus⟩
      exact (length_forget_lt hlisted).trans_eq (List.length_map _)

theorem status_of_waitpid {world : World} {preferred : Pid}
    (hwait : world.waitpid preferred = none) : ∀ child ∈ world.children, child.status = none := by
  obtain ⟨_, hhead⟩ := Option.or_eq_none_iff.mp hwait
  intro child hchild
  have hnone := List.filterMap_eq_nil_iff.mp (List.head?_eq_none_iff.mp hhead) child hchild
  exact Option.map_eq_none_iff.mp hnone

/-- `reap_children` goes on until no exited child is left. -/
theorem reapLoop_clears {fuel : Nat} {world : World} (hfuel : world.children.length < fuel) :
    ∀ child ∈ (reapLoop fuel world).children, child.status = none := by
  induction fuel generalizing world with
  | zero => exact absurd hfuel (Nat.not_lt_zero _)
  | succ fuel ih =>
      unfold reapLoop
      dsimp only
      split
      next hwait => exact status_of_waitpid hwait
      next child status hwait =>
        obtain ⟨hchild, hstatus⟩ := waitpid_mem hwait
        have hshorter := length_reapOne_lt hchild hstatus
        have hsame : world.interact.children.length = world.children.length := List.length_map _
        exact ih (by omega)

end World

/-- What holds of every child, and of the child of the next fork, still holds of every child. -/
theorem Act.forall_children {kind : Kind} {world next : World} (hact : Act kind world next)
    {property : Child → Prop} (hpass : ∀ beat child, property child → property (child.pass beat))
    (hkill : ∀ child : Child, property child → property { child with killed := true })
    (hborn : ∀ child : Child, child.serial = world.forks → property child)
    (h : ∀ child ∈ world.children, property child) : ∀ child ∈ next.children, property child := by
  have hmarked : ∀ pid, ∀ child ∈ (world.markKilled pid).children, property child := by
    intro pid child hchild
    obtain ⟨old, hold, rfl⟩ := List.mem_map.mp hchild
    split
    · exact hkill old (h old hold)
    · exact h old hold
  have hforgotten : ∀ pid, ∀ child ∈ (world.forget pid).children, property child :=
    fun pid child hchild => h child (World.mem_forget hchild).2
  cases hact with
  | env =>
      intro child hchild
      obtain ⟨old, hold, rfl⟩ := List.mem_map.mp hchild
      exact hpass _ old (h old hold)
  | fork _ _ i mp pid startTime =>
      rw [world.forkSucceeded_children i mp.name pid startTime]
      intro child hchild
      rcases List.mem_append.mp hchild with hold | hnew
      · exact h child hold
      · rw [List.mem_singleton.mp hnew]
        exact hborn _ rfl
  | zombieKill _ pid => exact hmarked pid
  | forceKill _ _ mp | giveUp _ _ mp | healthKill _ _ mp => exact hmarked mp.pid
  | reapUnmanaged _ child | reapStopped _ _ _ child | reapCrashed _ _ _ child =>
      exact hforgotten child.pid
  | reset => simpa using h
  | _ => exact h

theorem Act.forks_le {kind : Kind} {world next : World} (hact : Act kind world next) :
    world.forks ≤ next.forks := by
  cases hact with
  | fork => simp
  | reset => simp
  | _ => exact le_rfl

theorem World.interact_script_subset (world : World) : world.interact.script ⊆ world.script :=
  fun _ hbeat => List.mem_of_mem_tail hbeat

/-- A callback uses its script up. -/
theorem Act.script_subset {kind : Kind} {world next : World} (hact : Act kind world next)
    (hkind : Ongoing kind) : next.script ⊆ world.script := by
  cases hact with
  | env => exact world.interact_script_subset
  | enter _ script => exact absurd rfl (hkind.2 script)
  | fork | reset => simp
  | _ => exact List.Subset.refl _

section Reaping

variable {allow : Kind → Prop} {world next : World}

theorem acts_script (hallow : ∀ kind, allow kind → Ongoing kind)
    (hacts : Acts Act allow world next) : next.script ⊆ world.script :=
  hacts.keeps (fun later => later.script ⊆ world.script)
    (fun kind _ _ hkind hact hsubset =>
      List.Subset.trans (hact.script_subset (hallow kind hkind)) hsubset)
    (List.Subset.refl _)

theorem acts_forks (hacts : Acts Act allow world next) : world.forks ≤ next.forks :=
  hacts.keeps (fun later => world.forks ≤ later.forks)
    (fun _ _ _ _ hact hle => hle.trans hact.forks_le) le_rfl

/-- What is known about how the child with a serial number has ended stays true. -/
theorem acts_children (property : Option WaitStatus → Prop)
    (hexit : property none → ∀ status, property status)
    (hacts : Acts Act allow world next) {serial : Nat} (hpast : serial < world.forks)
    (h : ∀ child ∈ world.children, child.serial = serial → property child.status) :
    ∀ child ∈ next.children, child.serial = serial → property child.status := by
  refine (hacts.keeps (fun later => serial < later.forks ∧
    ∀ child ∈ later.children, child.serial = serial → property child.status) ?_ ⟨hpast, h⟩).2
  rintro kind state later _ hact ⟨hpast, h⟩
  refine ⟨hpast.trans_le hact.forks_le, hact.forall_children (fun beat child hchild hserial => ?_)
    (fun _ hchild => hchild) (fun child hborn hserial => ?_) h⟩
  · rw [Child.pass_serial] at hserial
    unfold Child.pass
    split
    next => exact hchild hserial
    next hrunning => exact hexit (hrunning ▸ hchild hserial) _
  · omega

/-- A child that has exited leaves the table in `reap_children`, and does not come back. -/
theorem reaped_of_acts (hnumbered : Numbered world)
    (hacts : Acts Act allow (World.reapChildren world) next) {child : Child}
    (hchild : child ∈ world.children) (hexited : child.status.isSome) :
    ∀ left ∈ next.children, left.serial ≠ child.serial := by
  have hroutine : Routine .routine := rfl
  have hreaping := World.reapChildren_acts hroutine world
  have hpast := hnumbered.past child hchild
  have hzombie : ∀ left ∈ (World.reapChildren world).children, left.serial = child.serial →
      left.status.isSome := by
    refine acts_children (fun status => status.isSome) (fun hnone => by cases hnone) hreaping hpast
      fun same hsame hserial => ?_
    rwa [List.inj_on_of_nodup_map hnumbered.nodup hsame hchild hserial]
  have hcleared := World.reapLoop_clears (Nat.lt_succ_self world.children.length)
  refine acts_children (fun _ => False) False.elim hacts (hpast.trans_le (acts_forks hreaping))
    fun left hleft hserial => ?_
  have hsome := hzombie left hleft hserial
  rw [hcleared left hleft] at hsome
  cases hsome

end Reaping

/-! ## Starting entries -/

/-- The child with that pid is at least the `since`-th. -/
def World.Since (since : Nat) (world : World) (pid : Pid) : Prop :=
  ∃ child ∈ world.children, child.pid = pid ∧ since ≤ child.serial

/-- Every STARTING entry has been started since. -/
def World.StartsSince (since : Nat) (world : World) : Prop :=
  ∀ mp ∈ world.processes, mp.state = .starting → world.Since since mp.pid

namespace World.Since

variable {since : Nat} {world : World} {pid : Pid}

theorem interact (h : world.Since since pid) : world.interact.Since since pid := by
  obtain ⟨child, hchild, hpid, hsince⟩ := h
  refine ⟨child.pass world.beat, List.mem_map_of_mem hchild, ?_, ?_⟩
  · rwa [Child.pass_pid]
  · rwa [Child.pass_serial]

theorem markKilled (h : world.Since since pid) (killed : Pid) :
    (world.markKilled killed).Since since pid := by
  obtain ⟨child, hchild, hpid, hsince⟩ := h
  refine ⟨_, List.mem_map_of_mem hchild, ?_⟩
  split
  · exact ⟨hpid, hsince⟩
  · exact ⟨hpid, hsince⟩

theorem forget (h : world.Since since pid) {gone : Pid} (hother : pid ≠ gone) :
    (world.forget gone).Since since pid := by
  obtain ⟨child, hchild, hpid, hsince⟩ := h
  exact ⟨child, List.mem_filter.mpr ⟨hchild, by simpa [hpid] using hother⟩, hpid, hsince⟩

end World.Since

namespace World.StartsSince

variable {since : Nat} {world next : World} {i : Nat} {change : ManagedProcess → ManagedProcess}

theorem of_same (h : world.StartsSince since) (hprocesses : next.processes = world.processes)
    (hchildren : ∀ pid, world.Since since pid → next.Since since pid) : next.StartsSince since := by
  intro mp hmp hstate
  rw [hprocesses] at hmp
  exact hchildren mp.pid (h mp hmp hstate)

/-- One entry changes, and is STARTING only if it was, with the same child. -/
theorem of_update (h : world.StartsSince since)
    (hprocesses : next.processes = world.processes.modify i change)
    (hchildren : ∀ pid, world.Since since pid → next.Since since pid)
    (hchange : ∀ mp, (change mp).state = .starting →
      mp.state = .starting ∧ (change mp).pid = mp.pid) : next.StartsSince since := by
  unfold StartsSince
  rw [hprocesses]
  refine forall_modify (fun mp hmp hstarting => hchildren mp.pid (h mp hmp hstarting))
    fun mp hmp hstarting => ?_
  obtain ⟨hstate, hpid⟩ := hchange mp hstarting
  rw [hpid]
  exact hchildren mp.pid (h mp (List.mem_of_getElem? hmp) hstate)

/-- One entry lets go of its child, which leaves the table. -/
theorem of_reaped (h : world.StartsSince since) (hsound : Sound world) {mp : ManagedProcess}
    {child : Child} (hentry : world.processes[i]? = some mp) (hpid : mp.pid = child.pid)
    (hprocesses : next.processes = world.processes.modify i change)
    (hchildren : next.children = (world.forget child.pid).children)
    (hstate : ∀ mp, (change mp).state ≠ .starting) : next.StartsSince since := by
  intro other hother hstarting
  rw [hprocesses] at hother
  obtain ⟨j, hj⟩ := List.mem_iff_getElem?.mp hother
  rcases getElem?_modify_cases hj with ⟨_, old, _, rfl⟩ | ⟨hij, hj⟩
  · exact absurd hstarting (hstate old)
  · have hmem := List.mem_of_getElem? hj
    have hlive := hsound.pidLive other hmem (hstarting ▸ trivial)
    have hne : other.pid ≠ child.pid := fun hsame =>
      hij (hsound.pidDistinct j i other mp hj hentry hlive (hsame.trans hpid.symm)).symm
    have hkept := (h other hmem hstarting).forget hne
    rwa [Since, ← hchildren] at hkept

end World.StartsSince

/-- An entry becomes STARTING only with a new child. -/
theorem Act.startsSince {kind : Kind} {world next : World} (hact : Act kind world next)
    {since : Nat} (hsound : Sound world) (hsince : since ≤ world.forks)
    (h : world.StartsSince since) : next.StartsSince since := by
  cases hact with
  | env => exact h.of_same rfl fun _ hpid => hpid.interact
  | zombieKill _ pid => exact h.of_same rfl fun _ hchild => hchild.markKilled pid
  | healthKill _ _ mp => exact h.of_same rfl fun _ hchild => hchild.markKilled mp.pid
  | fork _ _ i mp pid startTime =>
      have hchildren := world.forkSucceeded_children i mp.name pid startTime
      unfold World.StartsSince
      rw [world.forkSucceeded_processes i mp.name pid startTime]
      refine forall_modify (fun other hother hstarting => ?_) fun _ _ _ => ?_
      · obtain ⟨child, hchild, hknown⟩ := h other hother hstarting
        exact ⟨child, hchildren ▸ List.mem_append_left _ hchild, hknown⟩
      · exact ⟨_, hchildren ▸ List.mem_append_right _ (List.mem_singleton_self _), rfl, hsince⟩
  | forkFail | requestStop | markRunning =>
      exact h.of_update rfl (fun _ hchild => hchild) fun _ hstate => by cases hstate
  | reset _ i mp =>
      refine h.of_update (world.resetForStart_processes i mp.name) (fun pid hchild => ?_)
        fun _ hstate => by cases hstate
      simpa [World.Since] using hchild
  | resetEntries =>
      intro mp hmp hstarting
      obtain ⟨_, _, rfl⟩ := List.mem_map.mp hmp
      cases hstarting
  | permitRestart | resetBackoff | countRestart | growBackoff =>
      exact h.of_update rfl (fun _ hchild => hchild) fun _ hstate => ⟨hstate, rfl⟩
  | giveUp _ i mp =>
      exact h.of_update rfl (fun _ hchild => hchild.markKilled mp.pid) fun _ hstate => ⟨hstate, rfl⟩
  | forceKill _ i mp =>
      exact h.of_update rfl (fun _ hchild => hchild.markKilled mp.pid)
        fun _ hstate => by cases hstate
  | reapUnmanaged _ child _ hforeign =>
      exact fun mp hmp hstate => (h mp hmp hstate).forget (hforeign mp hmp)
  | reapStopped _ i mp child _ hentry hpid | reapCrashed _ i mp child _ hentry hpid =>
      exact h.of_reaped hsound hentry hpid rfl rfl fun _ hstate => by cases hstate
  | _ => exact h.of_same rfl fun _ hchild => hchild

namespace World

/-! ## Loops over all entries -/

/-- What is to hold of the entry with that number holds. -/
def AttendedAt (attended : ManagedProcess → World → Prop) (i : Nat) (world : World) : Prop :=
  ∀ mp, world.processes[i]? = some mp → attended mp world

/-- A loop that attends to each entry in its turn, and undoes this for no other, leaves all of them
attended to. -/
theorem each_attends {body : Nat → World → World} {world : World} (invariant : World → Prop)
    (attended : ManagedProcess → World → Prop)
    (hbody : ∀ i later, later.mode = .up → invariant later →
      (body i later).mode = .up ∧ invariant (body i later) ∧
        AttendedAt attended i (body i later) ∧
        ∀ j, AttendedAt attended j later → AttendedAt attended j (body i later))
    (hlength : (world.each world.indices body).processes.length = world.processes.length)
    (hup : world.mode = .up) (hworld : invariant world) :
    (world.each world.indices body).mode = .up ∧ invariant (world.each world.indices body) ∧
      ∀ mp ∈ (world.each world.indices body).processes,
        attended mp (world.each world.indices body) := by
  obtain ⟨hup', hinv, hall⟩ := each_covers invariant (AttendedAt attended) hbody world.indices
    hup hworld
  refine ⟨hup', hinv, fun mp hmp => ?_⟩
  obtain ⟨i, hi⟩ := List.mem_iff_getElem?.mp hmp
  obtain ⟨hlt, _⟩ := List.getElem?_eq_some_iff.mp hi
  exact hall i (List.mem_range.mpr (hlength ▸ hlt)) mp hi

/-- The body does nothing for an entry that needs nothing. -/
theorem attendedAt_of_entry {attended : ManagedProcess → World → Prop} {i : Nat} {world : World}
    {mp : ManagedProcess} (hentry : world.processes[i]? = some mp) (h : attended mp world) :
    AttendedAt attended i world := by
  intro same hsame
  cases hentry.symm.trans hsame
  exact h

theorem attendedAt_of_none {attended : ManagedProcess → World → Prop} {i : Nat} {world : World}
    (hentry : world.processes[i]? = none) : AttendedAt attended i world :=
  fun mp hmp => by simp [hentry] at hmp

/-- `check_started` finds the child of every STARTING entry. -/
theorem markRunning_attends {world : World} (hup : world.mode = .up) (hsound : Sound world) :
    (markRunning world).mode = .up ∧
      ∀ mp ∈ (markRunning world).processes, mp.state ≠ .starting := by
  have hadvance : Ordinary .advance := Kind.noConfusion
  have hlength := length_of_names (acts_names (markRunning_acts hadvance world))
  refine And.imp_right And.right (each_attends Sound (fun mp _ => mp.state ≠ .starting)
    (fun i later hup hsound => ?_) hlength hup hsound)
  cases hentry : later.processes[i]? with
  | none =>
      rw [onEntry_none hentry]
      exact ⟨hup, hsound, attendedAt_of_none hentry, fun _ h => h⟩
  | some mp =>
      rw [onEntry_some hentry]
      split
      next hstate => exact ⟨hup, hsound, attendedAt_of_entry hentry hstate, fun _ h => h⟩
      next hstate =>
        have hstarting := not_not.mp hstate
        have hmem := List.mem_of_getElem? hentry
        have hlive := hsound.pidLive mp hmem (hstarting ▸ trivial)
        have hexists : later.exists? mp.pid = true := by
          obtain ⟨child, hchild, hpid⟩ := List.mem_map.mp (hsound.hasChild mp hmem hlive)
          exact List.any_eq_true.mpr ⟨child, hchild, beq_iff_eq.mpr hpid⟩
        rw [if_neg (Int.not_le.mpr hlive), if_pos hexists]
        refine ⟨hup, (Act.markRunning later i mp hentry hstarting).sound hsound,
          fun same hsame => ?_, fun j h same hsame => ?_⟩
        · rcases getElem?_modify_cases hsame with ⟨_, _, _, rfl⟩ | ⟨hij, _⟩
          · simp
          · exact absurd rfl hij
        · rcases getElem?_modify_cases hsame with ⟨_, _, _, rfl⟩ | ⟨_, hkept⟩
          · simp
          · exact h same hkept

section Views

variable {β : Type} (view : ManagedProcess → β)

theorem resetBackoffs_view
    (hview : ∀ (mp : ManagedProcess) backoff,
      view { mp with currentBackoffSec := backoff } = view mp)
    (world : World) : (resetBackoffs world).processes.map view = world.processes.map view := by
  unfold resetBackoffs
  refine (each_frame (fun later => later.processes.map view) ?_ _ _).trans rfl
  intro i later
  refine onEntry_frame (fun later => later.processes.map view) i later fun mp _ => ?_
  split
  next => rfl
  next =>
    split
    next => rfl
    next =>
      split
      next => rfl
      next =>
        split
        next => exact map_modify_same view fun mp _ => hview mp _
        next => rfl

theorem checkOdinHealth_view
    (hview : ∀ (mp : ManagedProcess) autoRestart stopping exitReason,
      view { mp with autoRestart, stopping, exitReason } = view mp) (world : World) :
    (checkOdinHealth world).processes.map view = world.processes.map view := by
  unfold checkOdinHealth
  split
  next => rfl
  next i _ =>
    refine onEntry_frame (fun later => later.processes.map view) i world fun mp _ => ?_
    split
    next => rfl
    next =>
      split
      next => rfl
      next =>
        split
        next => rfl
        next =>
          dsimp only
          split
          next => split <;> rfl
          next =>
            split
            next => exact map_modify_same view fun mp _ => hview mp _ _ _
            next => rfl

end Views

/-! ## Pending entries -/

/-- `start_process` ends in one of two ways, after some interactions and kills. -/
theorem startProcess_ends (before after : World → Prop) {i : Nat} {mp : ManagedProcess}
    {world : World} (hinteract : ∀ later, before later → before later.interact)
    (hkill : ∀ pid later, before later →
      before ((later.markKilled pid).record (.zombieKilled pid)))
    (hfailed : ∀ error later, before later → after (forkFailed i error later))
    (hforked : ∀ pid startTime later, before later →
      after (forkSucceeded i mp.name pid startTime later))
    (hentry : world.processes[i]? = some mp) (h : before world) : after (startProcess i world) := by
  have hcleared : before (killZombie mp world) := by
    unfold killZombie
    split
    next => exact h
    next =>
      refine List.foldlRecOn _ _ (hinteract world h) ?_
      rintro later hlater ⟨pid, cmdline⟩ _
      dsimp only
      split
      · exact hkill pid later hlater
      · exact hlater
  rw [startProcess, onEntry_some hentry]
  generalize killZombie mp world = cleared at hcleared
  have hread := hinteract _ (hinteract _ hcleared)
  dsimp only
  split
  next => exact hfailed _ _ hread
  next =>
    split
    next =>
      apply hforked
      split
      · exact hinteract _ hread
      · exact hread
    next => exact hfailed _ _ hread

theorem beat_mem (world : World) :
    world.beat ∈ world.script ∨ world.beat = {} ∧ world.script = [] := by
  cases hscript : world.script with
  | nil => exact Or.inr ⟨by simp [beat, hscript], rfl⟩
  | cons beat rest => exact Or.inl (by simp [World.beat, hscript])

end World

/-- An answer of the graph in this callback lacked a topic that the entry waits for. Answers are
empty once the script has been used up. -/
def ManagedProcess.Lacks (script : List Beat) (mp : ManagedProcess) (world : World) : Prop :=
  ∃ answer : Beat, (answer ∈ script ∨ answer = {} ∧ world.script = []) ∧
    World.topicsReady answer.topics mp = false

/-- A PENDING entry waits for a dependency or for a topic. -/
def ManagedProcess.HeldBack (script : List Beat) (mp : ManagedProcess) (world : World) : Prop :=
  mp.state = .pending → world.dependenciesRunning mp = true → mp.Lacks script world

/-- A script that has been used up stays so. -/
theorem ManagedProcess.Lacks.of_script {script : List Beat} {mp : ManagedProcess}
    {world next : World} (h : mp.Lacks script world) (hscript : next.script ⊆ world.script) :
    mp.Lacks script next := by
  obtain ⟨answer, hanswer, hlacks⟩ := h
  refine ⟨answer, hanswer.imp_right (And.imp_right fun hempty => ?_), hlacks⟩
  rw [hempty] at hscript
  exact List.eq_nil_of_subset_nil hscript

namespace World

section Pending

variable {world : World} {script : List Beat}

theorem startProcess_script {i : Nat} {mp : ManagedProcess}
    (hentry : world.processes[i]? = some mp) : (startProcess i world).script ⊆ world.script := by
  refine startProcess_ends (fun later => later.script ⊆ world.script)
    (fun later => later.script ⊆ world.script)
    (fun later hlater => List.Subset.trans later.interact_script_subset hlater)
    (fun _ _ hlater => hlater) (fun _ _ hlater => hlater) (fun pid startTime later hlater => ?_)
    hentry (List.Subset.refl _)
  rwa [forkSucceeded_script]

/-- A start leaves no PENDING entry behind, and the dependencies of the others as they are. -/
theorem startProcess_attends {i : Nat} {mp : ManagedProcess}
    (hentry : world.processes[i]? = some mp) (hstate : mp.state = .pending) (h : Serene world) :
    Serene (startProcess i world) ∧
      AttendedAt (ManagedProcess.HeldBack script) i (startProcess i world) ∧
      ∀ j, AttendedAt (ManagedProcess.HeldBack script) j world →
        AttendedAt (ManagedProcess.HeldBack script) j (startProcess i world) := by
  obtain ⟨change, hkeeps, hstarts, hprocesses⟩ := startProcess_processes i world
  have hstates := runStates_modify hkeeps hprocesses hentry (by simp [hstate])
  have hstarted : ∀ mp, (change mp).HeldBack script (startProcess i world) := by
    intro mp hpending
    rcases hstarts mp with hstarting | ⟨hfailed, _⟩
    · cases hpending.symm.trans hstarting
    · cases hpending.symm.trans hfailed
  refine ⟨startProcess_serene i h, fun same hsame => ?_, fun j hattended same hsame => ?_⟩
  · rw [hprocesses] at hsame
    rcases getElem?_modify_cases hsame with ⟨_, old, _, rfl⟩ | ⟨hij, _⟩
    · exact hstarted old
    · exact absurd rfl hij
  · rw [hprocesses] at hsame
    rcases getElem?_modify_cases hsame with ⟨_, old, _, rfl⟩ | ⟨_, hkept⟩
    · exact hstarted old
    · intro hpending hrunning
      rw [dependenciesRunning_congr same hstates] at hrunning
      exact (hattended same hkept hpending hrunning).of_script (startProcess_script hentry)

/-- So does an answer of the graph. -/
theorem attendedAt_interact {j : Nat} (h : AttendedAt (ManagedProcess.HeldBack script) j world) :
    AttendedAt (ManagedProcess.HeldBack script) j world.interact :=
  fun mp hentry hpending hrunning =>
    (h mp hentry hpending hrunning).of_script world.interact_script_subset

/-- `handle_pending` starts what it can. -/
theorem handlePending_attends (h : Serene world) (hidle : world.deadline = none)
    (hscript : world.script ⊆ script) :
    ∀ mp ∈ (handlePending world).processes, mp.HeldBack script (handlePending world) := by
  have hordinary : ∀ kind, Ordinary kind → Ordinary kind := fun _ hkind => hkind
  have hlength := length_of_names (acts_names
    (handlePending_acts (by simp [Ordinary]) (by simp [Ordinary]) hordinary hidle))
  refine (each_attends (fun later => Serene later ∧ later.script ⊆ script)
    (ManagedProcess.HeldBack script) (fun i later _ hlater => ?_) hlength h.up ⟨h, hscript⟩).2.2
  obtain ⟨hserene, hscript⟩ := hlater
  cases hentry : later.processes[i]? with
  | none =>
      rw [onEntry_none hentry]
      exact ⟨hserene.up, ⟨hserene, hscript⟩, attendedAt_of_none hentry, fun _ h => h⟩
  | some mp =>
      rw [onEntry_some hentry]
      split
      next hstate =>
        exact ⟨hserene.up, ⟨hserene, hscript⟩,
          attendedAt_of_entry hentry fun hpending => absurd hpending hstate, fun _ h => h⟩
      next hstate =>
        have hpending := not_not.mp hstate
        split
        next hblocked =>
          refine ⟨hserene.up, ⟨hserene, hscript⟩, attendedAt_of_entry hentry fun _ hrunning => ?_,
            fun _ h => h⟩
          cases hblocked.symm.trans hrunning
        next =>
          split
          next =>
            obtain ⟨hstarted, hattended⟩ := startProcess_attends hentry hpending hserene
            have hkept := List.Subset.trans (startProcess_script hentry) hscript
            exact ⟨hstarted.up, ⟨hstarted, hkept⟩, hattended⟩
          next =>
            have hread := interact_serene hserene
            have hentry' : later.interact.processes[i]? = some mp := hentry
            have hleft := List.Subset.trans later.interact_script_subset hscript
            dsimp only
            split
            next =>
              obtain ⟨hstarted, hattended, hothers⟩ :=
                startProcess_attends hentry' hpending hread
              have hkept := List.Subset.trans (startProcess_script hentry') hleft
              exact ⟨hstarted.up, ⟨hstarted, hkept⟩, hattended,
                fun j h => hothers j (attendedAt_interact h)⟩
            next hready =>
              refine ⟨hread.up, ⟨hread, hleft⟩, attendedAt_of_entry hentry' fun _ _ => ?_,
                fun j h => attendedAt_interact h⟩
              have hlacks : mp.Lacks script later :=
                ⟨later.beat, later.beat_mem.imp_left fun hbeat => hscript hbeat,
                  by simpa using hready⟩
              exact hlacks.of_script later.interact_script_subset

end Pending

/-- `publish_status` changes no entry. -/
theorem publishStatus_processes (world : World) :
    (publishStatus world).processes = world.processes := by
  have hcollect : ∀ (entries : List ManagedProcess) (done : List ProcessStatus) (later : World),
      (collectStatuses entries done later).2.processes = later.processes := by
    intro entries
    induction entries with
    | nil => exact fun _ _ => rfl
    | cons mp rest ih =>
        intro done later
        have hread : (if mp.state = .running then later.interact else later).processes =
            later.processes := by
          split <;> rfl
        unfold collectStatuses
        dsimp only
        split
        next => exact hread
        next => exact (ih _ _).trans hread
  unfold publishStatus
  dsimp only
  split
  next => rfl
  next =>
    split
    next heq => exact (congrArg (·.2.processes) heq).symm.trans (hcollect _ _ _)
    next heq => exact (congrArg (·.2.processes) heq).symm.trans (hcollect _ _ _)

end World

/-! ## The whole tick -/

/-- What a tick with that script leaves. -/
structure Attended (world : World) (script : List Beat) (next : World) : Prop where
  /-- A child that had exited has been reaped. -/
  reaped : ∀ child ∈ world.children, child.status.isSome →
    ∀ left ∈ next.children, left.serial ≠ child.serial
  /-- A STARTING entry has been started by this tick. -/
  started : next.StartsSince world.forks
  pending : ∀ mp ∈ next.processes, mp.HeldBack script next

/-- The steps of a tick that returns: each begins where the one before it has ended. -/
structure Phases (world checked healthy restarted : World) : Prop where
  checked_eq : checked = World.checkStopTimeouts (World.reapChildren world)
  healthy_eq : healthy = World.checkOdinHealth (World.checkStarted checked)
  restarted_eq : restarted = World.handleRestarts healthy
  next_eq : World.onTimer world = World.publishStatus (World.handlePending restarted)
  checked_serene : Serene checked
  healthy_serene : Serene healthy
  restarted_serene : Serene restarted

/-- What a tick that finds no signal is made of. -/
def Ticking : Kind → Prop
  | .routine | .advance | .backoff | .giveUp | .ungated _ => True
  | _ => False

theorem Ticking.ongoing {kind : Kind} (hkind : Ticking kind) : Ongoing kind := by
  constructor
  · rintro rfl
    exact hkind
  · rintro script rfl
    exact hkind

namespace Phases

variable {world checked healthy restarted : World}

theorem of_up (hclocked : world.Clocked) (hsignal : world.signalReceived = false)
    (hup : (World.onTimer world).mode = .up) :
    ∃ checked healthy restarted, Phases world checked healthy restarted := by
  have hroutine : Routine .routine := rfl
  unfold World.onTimer at hup
  rw [if_neg (by simp [hsignal])] at hup
  obtain ⟨hrestarted, hnext⟩ := World.andThen_up hup
  obtain ⟨hhealthy, hrestarts⟩ := World.andThen_up hrestarted
  obtain ⟨hstarted, hhealth⟩ := World.andThen_up hhealthy
  obtain ⟨hchecked, hstarts⟩ := World.andThen_up hstarted
  obtain ⟨_, htimeouts⟩ := World.andThen_up hchecked
  rw [htimeouts] at hchecked hstarts
  rw [htimeouts, hstarts] at hhealth
  rw [htimeouts, hstarts, hhealth] at hrestarts
  rw [htimeouts, hstarts, hhealth, hrestarts] at hnext
  have hacts := (World.reapChildren_acts hroutine world).trans
    (World.checkStopTimeouts_acts hroutine _)
  have hserene : Serene (World.checkStopTimeouts (World.reapChildren world)) :=
    ⟨hchecked, acts_clocked hacts hclocked⟩
  have hserene' := World.checkOdinHealth_serene (World.checkStarted_serene hserene)
  have hserene'' := World.handleRestarts_serene hserene'
  refine ⟨_, _, _, rfl, rfl, rfl, ?_, hserene, hserene', hserene''⟩
  unfold World.onTimer
  rw [if_neg (by simp [hsignal]), htimeouts, hstarts, hhealth, hrestarts, hnext, World.andThen,
    if_pos (World.handlePending_serene hserene'').up]

/-- What a tick does, up to `check_odin_health`, in `handle_restarts` and after it. -/
theorem acts (h : Phases world checked healthy restarted) (hidle : world.deadline = none) :
    Acts Act Ticking (World.reapChildren world) checked ∧ Acts Act Ticking checked healthy ∧
      Acts Act Ticking healthy restarted ∧ Acts Act Ticking restarted (World.onTimer world) ∧
      healthy.deadline = none ∧ restarted.deadline = none := by
  have hroutine : Ticking .routine := trivial
  have hadvance : Ticking .advance := trivial
  have hordinary : ∀ kind, Ticking kind → Ordinary kind := fun kind hkind => hkind.ongoing.1
  have hreaping := World.reapChildren_acts hroutine world
  have hchecking := World.checkStopTimeouts_acts hroutine (World.reapChildren world)
  rw [← h.checked_eq] at hchecking
  have hhealth := (World.checkStarted_acts hroutine hadvance checked).trans
    (World.checkOdinHealth_acts hroutine fun _ => trivial)
  rw [← h.healthy_eq] at hhealth
  have hidle' := (acts_deadline hordinary ((hreaping.trans hchecking).trans hhealth)).trans hidle
  have hrestarts := World.handleRestarts_acts hroutine hadvance trivial hordinary hidle'
    fun _ _ => trivial
  rw [← h.restarted_eq] at hrestarts
  have hidle'' := (acts_deadline hordinary hrestarts).trans hidle'
  refine ⟨hchecking, hhealth, hrestarts, ?_, hidle', hidle''⟩
  rw [h.next_eq]
  exact (World.handlePending_acts hroutine hadvance hordinary hidle'').trans
    (World.publishStatus_acts hroutine _)

end Phases

/-- No entry is STARTING once `check_started` has been through. -/
theorem Phases.startsSince {world checked healthy restarted : World}
    (h : Phases world checked healthy restarted) (hsound : Sound checked) (since : Nat) :
    healthy.StartsSince since := by
  obtain ⟨hmarked, hnone⟩ := World.markRunning_attends h.checked_serene.up hsound
  have hstates : healthy.processes.map (·.state) =
      (World.markRunning checked).processes.map (·.state) := by
    rw [h.healthy_eq, World.checkOdinHealth_view (·.state) fun _ _ _ _ => rfl, World.checkStarted,
      World.andThen, if_pos hmarked]
    exact World.resetBackoffs_view (·.state) (fun _ _ => rfl) _
  intro mp hmp hstarting
  obtain ⟨same, hsame, hstate⟩ := List.mem_map.mp (hstates ▸ List.mem_map_of_mem hmp)
  exact absurd (hstate.trans hstarting) (hnone same hsame)

theorem onTimer_attended {world : World} (hsound : Sound world) (hnumbered : Numbered world)
    (hclocked : world.Clocked) (hidle : world.deadline = none)
    (hsignal : world.signalReceived = false) (hup : (World.onTimer world).mode = .up) :
    Attended world world.script (World.onTimer world) := by
  obtain ⟨checked, healthy, restarted, h⟩ := Phases.of_up hclocked hsignal hup
  have hroutine : Ticking .routine := trivial
  obtain ⟨hchecking, hhealth, hrestarts, hafter, _, hidle'⟩ := h.acts hidle
  have hreaping := World.reapChildren_acts hroutine world
  have hearly := hreaping.trans (hchecking.trans hhealth)
  have hlate := hrestarts.trans hafter
  refine ⟨fun child => reaped_of_acts hnumbered ((hchecking.trans hhealth).trans hlate), ?_, ?_⟩
  · have hchecked := acts_sound (hreaping.trans hchecking) hsound
    refine (hlate.keeps (fun later => Sound later ∧ world.forks ≤ later.forks ∧
      later.StartsSince world.forks) ?_
        ⟨acts_sound hearly hsound, acts_forks hearly, h.startsSince hchecked _⟩).2.2
    rintro kind state later _ hact ⟨hsound, hforks, hstate⟩
    exact ⟨hact.sound hsound, hforks.trans hact.forks_le, hact.startsSince hsound hforks hstate⟩
  · have hscript := acts_script (fun _ hkind => hkind.ongoing) (hearly.trans hrestarts)
    intro mp hmp hpending hrunning
    rw [h.next_eq, World.publishStatus_processes] at hmp
    have hstates : (World.onTimer world).runStates =
        (World.handlePending restarted).runStates := by
      rw [h.next_eq, World.runStates, World.publishStatus_processes, World.runStates]
    rw [World.dependenciesRunning_congr mp hstates] at hrunning
    have hlacks :=
      World.handlePending_attends h.restarted_serene hidle' hscript mp hmp hpending hrunning
    rw [h.next_eq]
    exact hlacks.of_script (acts_script (fun _ hkind => hkind.ongoing)
      (World.publishStatus_acts hroutine (World.handlePending restarted)))

/-! ## Every tick of a run -/

/-- Every tick that finds no signal and returns attends to everything. -/
def Attentive (world : World) (label : Label) : Prop :=
  label.request = .timer → world.signalReceived = false → (step world label).mode = .up →
    Attended world label.script (step world label)

/-- In every run, each tick leaves no child that had exited unreaped, no entry STARTING that was
STARTING before, and no entry PENDING whose dependencies are RUNNING and whose topics were there. -/
theorem run_attentive (config : Config) (nodes : List ProcessNode) (ros steady : Int)
    (labels : List Label) : EveryStep step Attentive (initial config nodes ros steady) labels := by
  refine everyStep_of_invariant step (fun world => WellTimed world ∧ Numbered world) ?_ ?_ labels
    ⟨wellTimed_initial config nodes ros steady, numbered_initial config nodes ros steady⟩
  · rintro world label ⟨hwell, hnumbered⟩
    exact ⟨step_wellTimed label hwell, step_numbered label hwell.ready hnumbered⟩
  · rintro world label ⟨hwell, hnumbered⟩ hrequest hsignal hup
    by_cases hworld : world.mode = .up
    · have hstep : step world label = World.onTimer (world.entered label) := by
        rw [step, if_pos hworld, hrequest]
        rfl
      rw [hstep] at hup ⊢
      have hentered : Act (.enter label.script) world (world.entered label) := .enter world _
      obtain ⟨hreaped, hstarted, hpending⟩ :=
        onTimer_attended (hentered.sound hwell.ready.sound) (hentered.numbered hnumbered)
          (hentered.clocked hwell.clocked) (hwell.ready.idle hworld).1 hsignal hup
      exact ⟨hreaped, hstarted, hpending⟩
    · rw [step, if_neg hworld] at hup
      exact absurd hup hworld

end AcflyRos.Daemon

import AcflyRos.Daemon.StopAll

/-! # Stopping one process

A stop of one process succeeds for an entry that is STARTING or RUNNING, and such an
entry has a child. Until that child is reaped or killed its entry waits in STOPPING with
its stop flag set, so that the exit counts as planned however and whenever it is seen.
-/

namespace AcflyRos.Daemon

open AcflyRos.Transition AcflyRos.Table

/-! ## Serial numbers -/

/-- Serial numbers of children are those of earlier forks, and all different. -/
structure Numbered (world : World) : Prop where
  past : ∀ child ∈ world.children, child.serial < world.forks
  nodup : (world.children.map (·.serial)).Nodup

namespace World

def serials (world : World) : List Nat := world.children.map (·.serial)

theorem serials_interact (world : World) : world.interact.serials = world.serials := by
  simp [serials, interact, Function.comp_def]

theorem serials_markKilled (world : World) (pid : Pid) :
    (world.markKilled pid).serials = world.serials := by
  simp only [serials, markKilled, List.map_map]
  apply List.map_congr_left
  intro child _
  simp only [Function.comp_apply]
  split <;> rfl

theorem serials_forget (world : World) (pid : Pid) :
    (world.forget pid).serials.Sublist world.serials :=
  List.filter_sublist.map _

theorem mem_serials_of_serialOf {world : World} {pid : Pid} {serial : Nat}
    (hserial : world.serialOf pid = some serial) :
    ∃ child ∈ world.children, child.pid = pid ∧ child.serial = serial := by
  obtain ⟨child, hfind, hserial⟩ := Option.map_eq_some_iff.mp hserial
  exact ⟨child, List.mem_of_find?_eq_some hfind, by simpa using List.find?_some hfind, hserial⟩

end World

namespace Numbered

variable {world next : World}

theorem of_sublist (h : Numbered world) (hserials : next.serials.Sublist world.serials)
    (hforks : next.forks = world.forks) : Numbered next where
  past := by
    intro child hchild
    obtain ⟨old, hold, hserial⟩ :=
      List.mem_map.mp (hserials.subset (List.mem_map_of_mem hchild))
    rw [← hserial, hforks]
    exact h.past old hold
  nodup := hserials.nodup h.nodup

theorem of_same (h : Numbered world) (hserials : next.serials = world.serials)
    (hforks : next.forks = world.forks) : Numbered next :=
  h.of_sublist (by rw [hserials]) hforks

/-- A new child has the next serial number. -/
theorem of_fork (h : Numbered world) {born : Child} (hborn : born.serial = world.forks)
    (hchildren : next.children = world.children ++ [born]) (hforks : next.forks = world.forks + 1) :
    Numbered next where
  past := by
    intro child hchild
    rw [hchildren] at hchild
    rw [hforks]
    rcases List.mem_append.mp hchild with hold | hnew
    · exact Nat.lt_succ_of_lt (h.past child hold)
    · rw [List.mem_singleton.mp hnew, hborn]
      exact Nat.lt_succ_self _
  nodup := by
    rw [hchildren, List.map_append, List.nodup_append]
    refine ⟨h.nodup, List.nodup_singleton _, ?_⟩
    rintro old hold new hnew rfl
    obtain ⟨child, hchild, rfl⟩ := List.mem_map.mp hold
    have hpast := h.past child hchild
    simp only [List.map_cons, List.map_nil, List.mem_singleton] at hnew
    omega

/-- A serial number has one pid. -/
theorem pid_eq (h : Numbered world) {first second : Pid} {serial : Nat}
    (hfirst : world.serialOf first = some serial) (hsecond : world.serialOf second = some serial) :
    first = second := by
  obtain ⟨one, hone, rfl, hserial⟩ := World.mem_serials_of_serialOf hfirst
  obtain ⟨two, htwo, rfl, hserial'⟩ := World.mem_serials_of_serialOf hsecond
  rw [List.inj_on_of_nodup_map h.nodup hone htwo (hserial.trans hserial'.symm)]

end Numbered

theorem Act.numbered {kind : Kind} {world next : World} (hact : Act kind world next)
    (h : Numbered world) : Numbered next := by
  cases hact with
  | env => exact h.of_same world.serials_interact rfl
  | zombieKill _ pid => exact h.of_same (world.serials_markKilled pid) rfl
  | fork _ _ i mp pid startTime =>
      exact h.of_fork rfl (world.forkSucceeded_children i mp.name pid startTime) (by simp)
  | reset _ i mp => exact h.of_same (by simp [World.serials]) (by simp)
  | forceKill _ i mp | giveUp _ i mp | healthKill _ i mp =>
      exact h.of_same (world.serials_markKilled mp.pid) rfl
  | reapUnmanaged _ child => exact h.of_sublist (world.serials_forget child.pid) rfl
  | reapStopped _ i mp child | reapCrashed _ i mp child =>
      exact h.of_sublist (world.serials_forget child.pid) rfl
  | _ => exact h.of_same rfl rfl

/-! ## Waiting for the child -/

/-- The event is the kill of that child by `force_kill`. -/
def Event.forceKills (serial : Nat) : Event → Prop
  | .forceKilled _ child _ _ => child = some serial
  | _ => False

/-- The child of that serial number has not been killed since the log was that long. -/
def Spared (serial : Nat) (since : List Event) (world : World) : Prop :=
  ∃ events, world.log = events ++ since ∧ ∀ event ∈ events, ¬ event.forceKills serial

theorem Spared.cons {serial : Nat} {since : List Event} {world next : World}
    (h : Spared serial since world) {event : Event} (hlog : next.log = event :: world.log)
    (hevent : ¬ event.forceKills serial) : Spared serial since next := by
  obtain ⟨events, hevents, hspares⟩ := h
  refine ⟨event :: events, by rw [hlog, hevents, List.cons_append], ?_⟩
  rw [List.forall_mem_cons]
  exact ⟨hevent, hspares⟩

theorem Spared.of_same {serial : Nat} {since : List Event} {world next : World}
    (h : Spared serial since world) (hlog : next.log = world.log) : Spared serial since next := by
  unfold Spared
  rw [hlog]
  exact h

/-- The entry waits in STOPPING for the child that its stop request was for. -/
structure Awaits (i : Nat) (pid : Pid) (serial : Nat) (since : List Event) (world : World) :
    Prop where
  entry : ∀ mp, world.processes[i]? = some mp →
    mp.state = .stopping ∧ mp.stopping = true ∧ mp.pid = pid
  child : world.serialOf pid = some serial
  spared : Spared serial since world

namespace Awaits

variable {i j : Nat} {pid : Pid} {serial : Nat} {since : List Event} {world next : World}

theorem of_same (h : Awaits i pid serial since world)
    (hprocesses : next.processes = world.processes)
    (hserial : next.serialOf pid = world.serialOf pid) (hspared : Spared serial since next) :
    Awaits i pid serial since next where
  entry := hprocesses ▸ h.entry
  child := hserial.trans h.child
  spared := hspared

theorem of_modify (h : Awaits i pid serial since world)
    {change : ManagedProcess → ManagedProcess}
    (hprocesses : next.processes = world.processes.modify j change)
    (hchange : ∀ mp, world.processes[i]? = some mp → j = i →
      (change mp).state = .stopping ∧ (change mp).stopping = true ∧ (change mp).pid = mp.pid)
    (hserial : next.serialOf pid = world.serialOf pid) (hspared : Spared serial since next) :
    Awaits i pid serial since next where
  entry := by
    intro after hafter
    rw [hprocesses] at hafter
    rcases getElem?_modify_cases hafter with ⟨rfl, mp, hmp, rfl⟩ | ⟨_, hmp⟩
    · obtain ⟨hstate, hstopping, hpid⟩ := hchange mp hmp rfl
      exact ⟨hstate, hstopping, hpid.trans (h.entry mp hmp).2.2⟩
    · exact h.entry after hmp
  child := hserial.trans h.child
  spared := hspared

theorem of_other (h : Awaits i pid serial since world) (hne : j ≠ i)
    {change : ManagedProcess → ManagedProcess}
    (hprocesses : next.processes = world.processes.modify j change)
    (hserial : next.serialOf pid = world.serialOf pid) (hspared : Spared serial since next) :
    Awaits i pid serial since next :=
  h.of_modify hprocesses (fun _ _ hsame => absurd hsame hne) hserial hspared

/-- An entry in another state is another entry. -/
theorem ne (h : Awaits i pid serial since world) {other : ManagedProcess}
    (hother : world.processes[j]? = some other)
    (hdiffers : other.state ≠ .stopping ∨ other.stopping = false) : j ≠ i := by
  rintro rfl
  obtain ⟨hstate, hstopping, _⟩ := h.entry other hother
  rcases hdiffers with hdiffers | hdiffers
  · exact hdiffers hstate
  · exact absurd (hstopping.symm.trans hdiffers) (by decide)

/-- Another entry has another child. -/
theorem pid_ne (h : Awaits i pid serial since world) (hsound : Sound world) {mp : ManagedProcess}
    (hentry : world.processes[i]? = some mp) (hlive : 0 < pid) {other : ManagedProcess}
    (hother : world.processes[j]? = some other) (hne : j ≠ i) : other.pid ≠ pid := by
  have hpid := (h.entry mp hentry).2.2
  rw [← hpid] at hlive ⊢
  exact fun hsame => hne (hsound.pidDistinct i j mp other hentry hother hlive hsame.symm).symm

end Awaits

/-- The entry lets go of its child. -/
theorem halted_of_modify {i : Nat} {world next : World} {change : ManagedProcess → ManagedProcess}
    (hprocesses : next.processes = world.processes.modify i change)
    (hchange : ∀ mp, (change mp).state = .stopped ∧ (change mp).pid = -1) :
    ∀ mp, next.processes[i]? = some mp → mp.state = .stopped ∧ mp.pid = -1 := by
  intro after hafter
  rw [hprocesses] at hafter
  rcases getElem?_modify_cases hafter with ⟨_, mp, _, rfl⟩ | ⟨hne, _⟩
  · exact hchange mp
  · exact absurd rfl hne

/-- The entry goes on waiting, or has let go of its child. -/
theorem Act.awaits {kind : Kind} {world next : World} (hact : Act kind world next) {i : Nat}
    (hkind : kind ≠ .manual i ∧ kind ≠ .displace i) (hall : kind ≠ .manualAll)
    (hsound : Sound world) (hnumbered : Numbered world) {pid : Pid} {serial : Nat}
    {since : List Event} (hlive : 0 < pid) {mp : ManagedProcess}
    (hentry : world.processes[i]? = some mp) (h : Awaits i pid serial since world) :
    (Awaits i pid serial since next ∨
        ∀ mp, next.processes[i]? = some mp → mp.state = .stopped ∧ mp.pid = -1) ∧
      next.forksOf i = world.forksOf i := by
  obtain ⟨_, _, hpid⟩ := h.entry mp hentry
  have hstops : ∀ {other : ManagedProcess}, other.state = .stopping → other.state.live := by
    intro other hstate
    simp [hstate, ProcessState.live]
  have hpush : ∀ event : Event, next.log = event :: world.log → ¬ event.forceKills serial →
      (∀ child pid table, event ≠ .forked i child pid table) →
      Spared serial since next ∧ next.forksOf i = world.forksOf i :=
    fun event hlog hspares hforks => ⟨h.spared.cons hlog hspares, World.forksOf_cons hlog hforks⟩
  cases hact with
  | env => exact ⟨Or.inl (h.of_same rfl (world.serialOf_interact pid) (h.spared.of_same rfl)), rfl⟩
  | zombieKill _ killed =>
      obtain ⟨hspared, hforks⟩ := hpush _ rfl id fun _ _ _ hevent => by cases hevent
      exact ⟨Or.inl (h.of_same rfl (world.serialOf_markKilled killed pid) hspared), hforks⟩
  | fork _ _ j other born startTime hother hfresh hguard =>
      have hne := h.ne hother (Or.inl (hguard.not_live ∘ hstops))
      obtain ⟨hspared, hforks⟩ := hpush _ (world.forkSucceeded_log j other.name born startTime) id
        fun _ _ _ hevent => by simp [hne] at hevent
      refine ⟨Or.inl (h.of_other hne (world.forkSucceeded_processes j other.name born startTime)
        ?_ hspared), hforks⟩
      exact World.serialOf_append (world.forkSucceeded_children j other.name born startTime) h.child
  | forkFail _ _ j other _ hother hguard =>
      have hne := h.ne hother (Or.inl (hguard.not_live ∘ hstops))
      exact ⟨Or.inl (h.of_other hne rfl rfl (h.spared.of_same rfl)), rfl⟩
  | reset _ j other =>
      -- The request is for another entry.
      have hne : j ≠ i := by
        rintro rfl
        split at hkind
        · exact hkind.2 rfl
        · exact hkind.1 rfl
      refine ⟨Or.inl (h.of_other hne (world.resetForStart_processes j other.name) ?_
        (h.spared.of_same (by simp))), ?_⟩
      · simp [World.serialOf]
      · simp [World.forksOf]
  | resetEntries | permitRestart => exact absurd rfl hall
  | requestStop _ j other hother =>
      -- Also a second request for the entry itself leaves it waiting for the same child.
      obtain ⟨hspared, hforks⟩ := hpush _ rfl id fun _ _ _ hevent => by cases hevent
      exact ⟨Or.inl (h.of_modify rfl (fun _ _ _ => ⟨rfl, rfl, rfl⟩) rfl hspared), hforks⟩
  | forceKill _ j other hother =>
      have hforks : (world.forceKilled j other).forksOf i = world.forksOf i :=
        World.forksOf_cons rfl fun _ _ _ hevent => by cases hevent
      by_cases hne : j = i
      · subst hne
        exact ⟨Or.inr (halted_of_modify rfl fun _ => ⟨rfl, rfl⟩), hforks⟩
      · have hother' := h.pid_ne hsound hentry hlive hother hne
        have hspares : ¬ Event.forceKills serial (.forceKilled other.pid (world.serialOf other.pid)
            other.shutdownTimeoutSec world.ros) :=
          fun hserial => hother' (hnumbered.pid_eq hserial h.child)
        exact ⟨Or.inl (h.of_other hne rfl (world.serialOf_markKilled other.pid pid)
          (h.spared.cons rfl hspares)), hforks⟩
  | reapUnmanaged _ child _ hforeign =>
      have hne : pid ≠ child.pid := hpid ▸ hforeign mp (List.mem_of_getElem? hentry)
      exact ⟨Or.inl (h.of_same rfl (world.serialOf_forget hne) (h.spared.of_same rfl)), rfl⟩
  | reapStopped _ j other child _ hother hchild =>
      by_cases hne : j = i
      · subst hne
        exact ⟨Or.inr (halted_of_modify rfl fun _ => ⟨rfl, rfl⟩), rfl⟩
      · have hother' := h.pid_ne hsound hentry hlive hother hne
        rw [hchild] at hother'
        exact ⟨Or.inl (h.of_other hne rfl (world.serialOf_forget (Ne.symm hother'))
          (h.spared.of_same rfl)), rfl⟩
  | reapCrashed _ j other child _ hother hchild _ _ hcrashed =>
      have hne := h.ne hother (Or.inr hcrashed)
      have hother' := h.pid_ne hsound hentry hlive hother hne
      rw [hchild] at hother'
      exact ⟨Or.inl (h.of_other hne rfl (world.serialOf_forget (Ne.symm hother'))
        (h.spared.of_same rfl)), rfl⟩
  | markRunning _ j other hother hstarting =>
      have hne := h.ne hother (Or.inl (by simp [hstarting]))
      exact ⟨Or.inl (h.of_other hne rfl rfl (h.spared.of_same rfl)), rfl⟩
  | resetBackoff | countRestart | growBackoff =>
      refine ⟨Or.inl (h.of_modify rfl (fun same hsame _ => ?_) rfl (h.spared.of_same rfl)), rfl⟩
      exact ⟨(h.entry same hsame).1, (h.entry same hsame).2.1, rfl⟩
  | giveUp _ j other hodin hother hrunning =>
      have hne := h.ne hother (Or.inl (by simp [hrunning]))
      obtain ⟨hspared, hforks⟩ := hpush _ rfl id fun _ _ _ hevent => by cases hevent
      exact ⟨Or.inl (h.of_other hne rfl (world.serialOf_markKilled other.pid pid) hspared), hforks⟩
  | healthKill _ j other =>
      obtain ⟨hspared, hforks⟩ := hpush _ rfl id fun _ _ _ hevent => by cases hevent
      exact ⟨Or.inl (h.of_same rfl (world.serialOf_markKilled other.pid pid) hspared), hforks⟩
  | publish | arm | armStale =>
      obtain ⟨hspared, hforks⟩ := hpush _ rfl id fun _ _ _ hevent => by cases hevent
      exact ⟨Or.inl (h.of_same rfl rfl hspared), hforks⟩
  | _ => exact ⟨Or.inl (h.of_same rfl rfl (h.spared.of_same rfl)), rfl⟩

/-! ## Runs -/

/-- The child is no longer in the table, or has been sent SIGKILL since the log was that long. -/
def Gone (serial : Nat) (since : List Event) (world : World) : Prop :=
  (∀ child ∈ world.children, child.serial ≠ serial) ∨
    ∃ events, world.log = events ++ since ∧ ∃ event ∈ events, event.forceKills serial

theorem Awaits.not_gone {i : Nat} {pid : Pid} {serial : Nat} {since : List Event} {world : World}
    (h : Awaits i pid serial since world) : ¬ Gone serial since world := by
  rintro (hreaped | ⟨events, hevents, event, hevent, hkills⟩)
  · obtain ⟨child, hchild, _, hserial⟩ := World.mem_serials_of_serialOf h.child
    exact hreaped child hchild hserial
  · obtain ⟨same, hsame, hspares⟩ := h.spared
    rw [hevents] at hsame
    rw [List.append_cancel_right hsame] at hevent
    exact hspares event hevent hkills

/-- The entry has let go of its child. -/
def Halted (i : Nat) (world : World) : Prop :=
  ∀ mp, world.processes[i]? = some mp → mp.state = .stopped ∧ mp.pid = -1

/-- The entry waits for its child or has let go of it, and has not been forked since. -/
structure Sticks (i : Nat) (pid : Pid) (serial : Nat) (stopped world : World) : Prop where
  numbered : Numbered world
  entry : ∃ mp, world.processes[i]? = some mp
  phase : Awaits i pid serial stopped.log world ∨ Halted i world
  forks : world.forksOf i = stopped.forksOf i

theorem Act.sticks {kind : Kind} {world next : World} (hact : Act kind world next) {i : Nat}
    (hkind : kind ≠ .manual i ∧ kind ≠ .displace i) (hall : kind ≠ .manualAll)
    (hsound : Sound world) {pid : Pid} {serial : Nat} {stopped : World} (hlive : 0 < pid)
    (h : Sticks i pid serial stopped world) : Sticks i pid serial stopped next := by
  obtain ⟨mp, hentry⟩ := h.entry
  have hlength := World.length_of_names (World.names_of_fixed hact.fixed_eq)
  have hentry' : ∃ mp, next.processes[i]? = some mp := by
    obtain ⟨hlt, _⟩ := List.getElem?_eq_some_iff.mp hentry
    exact ⟨_, List.getElem?_eq_getElem (by rwa [hlength])⟩
  rcases h.phase with hawaits | hhalted
  · obtain ⟨hphase, hforks⟩ := hact.awaits hkind hall hsound h.numbered hlive hentry hawaits
    exact ⟨hact.numbered h.numbered, hentry', hphase, hforks.trans h.forks⟩
  · obtain ⟨hphase, hforks⟩ := hact.staysStopped hkind hall hsound hhalted
    exact ⟨hact.numbered h.numbered, hentry', Or.inr hphase, hforks.trans h.forks⟩

/-- The label neither starts nor restarts the process of that name, nor restarts all. -/
def Label.Leaves (name : String) (label : Label) : Prop :=
  label.request ≠ .start name ∧ label.request ≠ .restart name ∧ label.request ≠ .restart ""

/-- Such a label resets other entries only. -/
theorem Label.Leaves.kind {name : String} {label : Label} (h : label.Leaves name) {world : World}
    {i : Nat} (hfind : world.findProcess name = some i) {kind : Kind}
    (hallowed : Allowed world label kind) :
    (kind ≠ .manual i ∧ kind ≠ .displace i) ∧ kind ≠ .manualAll := by
  -- No other name leads to the entry.
  have hname : ∀ other, world.findProcess other = some i → other = name := by
    intro other hother
    obtain ⟨mp, hmp, rfl⟩ := World.findProcess_some hother
    obtain ⟨same, hsame, rfl⟩ := World.findProcess_some hfind
    cases hmp.symm.trans hsame
    rfl
  refine ⟨⟨?_, ?_⟩, ?_⟩
  · rintro rfl
    obtain ⟨other, hrequest, hother⟩ := hallowed
    rw [hname other hother] at hrequest
    rcases hrequest with hstart | ⟨hrestart, _⟩
    · exact h.1 hstart
    · exact h.2.1 hrestart
  · rintro rfl
    obtain ⟨other, _, hstart, hother, _⟩ := hallowed
    rw [hname other hother] at hstart
    exact h.1 hstart
  · rintro rfl
    exact h.2.2 hallowed

theorem step_names {world : World} (label : Label) (hready : Ready world) :
    (step world label).names = world.names := acts_names (step_acts label hready)

theorem run_names {world : World} (labels : List Label) (hready : Ready world) :
    (run step world labels).names = world.names := by
  refine (run_invariant step (fun state => Ready state ∧ state.names = world.names) ?_ labels
    ⟨hready, rfl⟩).2
  rintro state label ⟨hready, hnames⟩
  exact ⟨step_ready label hready, (step_names label hready).trans hnames⟩

/-- Names stay where they are throughout a run. -/
theorem everyStep_names {world : World} {labels : List Label} (hready : Ready world)
    {condition : Label → Prop} (hlabels : ∀ label ∈ labels, condition label) :
    EveryStep step (fun state label => state.names = world.names ∧ condition label) world
      labels := by
  have hnames : ∀ (labels : List Label) (state : World), Ready state → state.names = world.names →
      EveryStep step (fun state _ => state.names = world.names) state labels := by
    intro labels
    induction labels with
    | nil => exact fun _ _ _ => trivial
    | cons label rest ih =>
        intro state hready hsame
        exact ⟨hsame, ih _ (step_ready label hready) ((step_names label hready).trans hsame)⟩
  exact (hnames labels world hready rfl).and step (everyStep_of_forall step hlabels world)

/-- The invariant rule for runs that leave one entry alone. -/
theorem run_keeps_leaving {name : String} {world : World} {labels : List Label}
    (invariant : World → Prop) {i : Nat}
    (hact : ∀ kind before after, kind ≠ .manual i ∧ kind ≠ .displace i → kind ≠ .manualAll →
      Sound before → invariant before → Act kind before after → invariant after)
    (hready : Ready world) (hlabels : ∀ label ∈ labels, label.Leaves name)
    (hfind : world.findProcess name = some i) (hworld : invariant world) :
    invariant (run step world labels) := by
  refine run_keeps_acts invariant ?_ hready hworld (everyStep_names hready hlabels)
  intro state label kind before after _ hlabel hallowed hsound hbefore hstep
  have hfind' : state.findProcess name = some i :=
    (World.findProcess_congr hlabel.1 name).trans hfind
  obtain ⟨hkind, hall⟩ := hlabel.2.kind hfind' hallowed
  exact hact kind before after hkind hall hsound hbefore hstep

theorem numbered_initial (config : Config) (nodes : List ProcessNode) (ros steady : Int) :
    Numbered (initial config nodes ros steady) where
  past _ hchild := absurd hchild List.not_mem_nil
  nodup := List.nodup_nil

theorem step_numbered {world : World} (label : Label) (hready : Ready world) (h : Numbered world) :
    Numbered (step world label) :=
  (step_acts label hready).keeps Numbered (fun _ _ _ _ hact => hact.numbered) h

theorem run_numbered {world : World} (labels : List Label) (hready : Ready world)
    (h : Numbered world) : Numbered (run step world labels) := by
  refine (run_invariant step (fun world => Ready world ∧ Numbered world) ?_ labels ⟨hready, h⟩).2
  rintro world label ⟨hready, h⟩
  exact ⟨step_ready label hready, step_numbered label hready h⟩

/-! ## The request -/

/-- The stop of the process of that name is final until it is started again: it is not forked,
and from when its child is reaped or killed it is STOPPED. -/
def StopSticks (name : String) (stopped : World) : Prop :=
  ∃ i mp serial, stopped.findProcess name = some i ∧ stopped.processes[i]? = some mp ∧
    stopped.serialOf mp.pid = some serial ∧
      ∀ early late : List Label, (∀ label ∈ early ++ late, label.Leaves name) →
        (run step stopped (early ++ late)).forksOf i = stopped.forksOf i ∧
          (Gone serial stopped.log (run step stopped early) →
            ∃ mp, (run step stopped (early ++ late)).processes[i]? = some mp ∧
              mp.state = .stopped)

/-- A request that succeeds has found a child to ask. -/
theorem handleStop_awaits {world : World} {name : String} (hname : name ≠ "") (hsound : Sound world)
    (hsuccess : (World.handleStop name world).response.any (·.success) = true) :
    ∃ i mp serial, world.findProcess name = some i ∧
      (World.handleStop name world).processes[i]? = some mp ∧ 0 < mp.pid ∧
        Awaits i mp.pid serial (World.handleStop name world).log (World.handleStop name world) := by
  unfold World.handleStop at hsuccess ⊢
  rw [if_neg hname] at hsuccess ⊢
  cases hfind : world.findProcess name with
  | none => simp [hfind, World.respond] at hsuccess
  | some i =>
      obtain ⟨mp, hentry, _⟩ := World.findProcess_some hfind
      simp only [hfind, World.onEntry_some hentry] at hsuccess ⊢
      by_cases hdown : mp.state ≠ .running ∧ mp.state ≠ .starting
      · rw [if_pos hdown] at hsuccess
        simp [World.respond] at hsuccess
      · rw [if_neg hdown]
        -- An entry that is STARTING or RUNNING has a child.
        have hlive : 0 < mp.pid := by
          apply hsound.pidLive mp (List.mem_of_getElem? hentry)
          rw [ProcessState.live_iff]
          tauto
        obtain ⟨serial, hserial⟩ := World.serialOf_isSome
          (hsound.hasChild mp (List.mem_of_getElem? hentry) hlive)
        rw [World.requestStop, World.onEntry_some hentry, if_neg (Int.not_le.mpr hlive)]
        have hasked : (world.interact.stopRequested i mp.pid).processes[i]? = some { mp with
            stopping := true, stopRequestTime := world.interact.clock, state := .stopping } :=
          getElem?_modify_self hentry
        refine ⟨i, _, serial, rfl, hasked, hlive, ⟨?_, ?_, [], rfl, by simp⟩⟩
        · intro same hsame
          cases hasked.symm.trans hsame
          exact ⟨rfl, rfl, rfl⟩
        · exact (world.serialOf_interact mp.pid).trans hserial

/-- In every reachable state, a successful stop of one process is sticky. -/
theorem run_stopSticks (config : Config) (nodes : List ProcessNode) (ros steady : Int)
    (labels : List Label) (name : String) (script : List Beat) (hname : name ≠ "")
    (hup : (run step (initial config nodes ros steady) labels).mode = .up)
    (hsuccess : (step (run step (initial config nodes ros steady) labels)
      ⟨.stop name, script⟩).response.any (·.success) = true) :
    StopSticks name
      (step (run step (initial config nodes ros steady) labels) ⟨.stop name, script⟩) := by
  have hready := run_ready labels (ready_initial config nodes ros steady)
  have hnumbered := run_numbered labels (ready_initial config nodes ros steady)
    (numbered_initial config nodes ros steady)
  generalize run step (initial config nodes ros steady) labels = world at *
  have hready' := step_ready ⟨.stop name, script⟩ hready
  have hnumbered' := step_numbered ⟨.stop name, script⟩ hready hnumbered
  have hnames := step_names ⟨.stop name, script⟩ hready
  have hstep : step world ⟨.stop name, script⟩ =
      World.handleStop name (world.entered ⟨.stop name, script⟩) := if_pos hup
  have hsound : Sound (world.entered ⟨.stop name, script⟩) := hready.sound.of_same rfl rfl
  obtain ⟨i, mp, serial, hfind, hentry, hlive, hawaits⟩ :=
    handleStop_awaits hname hsound (hstep ▸ hsuccess)
  rw [← hstep] at hentry hawaits
  have hfind' : (step world ⟨.stop name, script⟩).findProcess name = some i :=
    (World.findProcess_congr hnames name).trans hfind
  generalize step world ⟨.stop name, script⟩ = stopped at *
  refine ⟨i, mp, serial, hfind', hentry, hawaits.child, fun early late hlabels => ?_⟩
  have hsticks : ∀ labels : List Label, (∀ label ∈ labels, label.Leaves name) →
      Sticks i mp.pid serial stopped (run step stopped labels) := fun labels hlabels =>
    run_keeps_leaving (Sticks i mp.pid serial stopped)
      (fun _ _ _ hkind hall hsound h hact => hact.sticks hkind hall hsound hlive h) hready' hlabels
      hfind' ⟨hnumbered', ⟨mp, hentry⟩, Or.inl hawaits, rfl⟩
  refine ⟨(hsticks _ hlabels).forks, fun hgone => ?_⟩
  have hearly : ∀ label ∈ early, label.Leaves name :=
    fun label hlabel => hlabels label (List.mem_append_left _ hlabel)
  have hlate : ∀ label ∈ late, label.Leaves name :=
    fun label hlabel => hlabels label (List.mem_append_right _ hlabel)
  have hhalted : Halted i (run step stopped early) :=
    (hsticks early hearly).phase.resolve_left fun hwaits => hwaits.not_gone hgone
  have hfind'' : (run step stopped early).findProcess name = some i :=
    (World.findProcess_congr (run_names early hready') name).trans hfind'
  -- From then on the entry has no child that could change its state.
  have hlast : Halted i (run step (run step stopped early) late) :=
    run_keeps_leaving (Halted i)
      (fun _ _ _ hkind hall hsound h hact => (hact.staysStopped hkind hall hsound h).1)
      (run_ready early hready') hlate hfind'' hhalted
  obtain ⟨last, hentry'⟩ := (hsticks _ hlabels).entry
  rw [← run_append] at hlast
  exact ⟨last, hentry', (hlast last hentry').1⟩

set_option maxRecDepth 4000 in
/-- The process is RUNNING when it is asked to stop. -/
theorem stopSticks_runningRun :
    StopSticks "mavros"
      (step (run step (initial {} [mavros] 0 0) runningRun) ⟨.stop "mavros", []⟩) :=
  run_stopSticks {} [mavros] 0 0 runningRun "mavros" [] (by decide) (by decide) (by decide)

end AcflyRos.Daemon

import AcflyRos.Foundation.History
import AcflyRos.Daemon.Steps

/-! # The health check of odin1_driver

The check is armed by any odometry message and disarmed when odin1_driver is
started. A message that an earlier instance published, and that is still queued
when the next one has been started, arms the check for an instance that may need
longer than the timeout for its first message. As long as no such message is
delivered, only an instance that has been heard is killed.
-/

namespace AcflyRos.Daemon

open AcflyRos.Transition AcflyRos.Table AcflyRos.History

/-- An instance killed by the health check has been heard before. -/
def HeardRule : Event → List Event → Prop
  | .healthKilled _ child _, earlier => ∃ serial, child = some serial ∧ .delivered serial ∈ earlier
  | _, _ => True

/-- While the check is armed, the current instance has been heard. -/
structure Heard (world : World) : Prop where
  armed : world.odinHealthArmed = true → ∀ i mp, world.findProcess odin = some i →
    world.processes[i]? = some mp → 0 < mp.pid →
      ∃ serial, world.serialOf mp.pid = some serial ∧ .delivered serial ∈ world.log
  kills : Justified HeardRule world.log

namespace Heard

variable {world next : World} {j : Nat} {change : ManagedProcess → ManagedProcess}

/-- Nothing arms the check, and odin1_driver takes no other child. -/
theorem mono (hheard : Heard world) (hfixed : next.fixed = world.fixed)
    (harmed : next.odinHealthArmed = true → world.odinHealthArmed = true)
    (hlog : world.log ⊆ next.log) (hkills : Justified HeardRule next.log)
    (hchild : ∀ i after, next.processes[i]? = some after → 0 < after.pid →
      next.odinHealthArmed = true → world.findProcess odin = some i →
      ∃ before, world.processes[i]? = some before ∧ before.pid = after.pid ∧
        next.serialOf after.pid = world.serialOf after.pid) : Heard next where
  armed hnext i after hodin hafter hlive := by
    rw [World.findProcess_congr (World.names_of_fixed hfixed)] at hodin
    obtain ⟨before, hbefore, hpid, hserial⟩ := hchild i after hafter hlive hnext hodin
    obtain ⟨serial, hsame, hlogged⟩ :=
      hheard.armed (harmed hnext) i before hodin hbefore (hpid ▸ hlive)
    exact ⟨serial, by rw [hserial, ← hpid, hsame], hlog hlogged⟩
  kills := hkills

/-- No pid changes. -/
theorem of_same (hheard : Heard world) (hfixed : next.fixed = world.fixed)
    (harmed : next.odinHealthArmed = true → world.odinHealthArmed = true)
    (hlog : world.log ⊆ next.log) (hkills : Justified HeardRule next.log)
    (hpids : next.processes.map (·.pid) = world.processes.map (·.pid))
    (hserial : ∀ pid, next.serialOf pid = world.serialOf pid) : Heard next := by
  apply hheard.mono hfixed harmed hlog hkills
  intro i after hafter _ _ _
  have hsame := congrArg (·[i]?) hpids
  simp only [List.getElem?_map, hafter, Option.map_some] at hsame
  obtain ⟨before, hbefore, hpid⟩ := Option.map_eq_some_iff.mp hsame.symm
  exact ⟨before, hbefore, hpid, hserial after.pid⟩

/-- An entry lets go of its child. -/
theorem of_release (hheard : Heard world) (hfixed : next.fixed = world.fixed)
    (harmed : next.odinHealthArmed = true → world.odinHealthArmed = true)
    (hlog : world.log ⊆ next.log) (hkills : Justified HeardRule next.log)
    (hprocesses : next.processes = world.processes.modify j change)
    (hpid : ∀ mp, (change mp).pid = -1)
    (hserial : ∀ i other, j ≠ i → world.processes[i]? = some other → 0 < other.pid →
      next.serialOf other.pid = world.serialOf other.pid) : Heard next := by
  apply hheard.mono hfixed harmed hlog hkills
  intro i after hafter hlive _ _
  rw [hprocesses] at hafter
  rcases getElem?_modify_cases hafter with ⟨_, before, _, rfl⟩ | ⟨hij, hbefore⟩
  · rw [hpid] at hlive
    exact absurd hlive (by decide)
  · exact ⟨after, hbefore, rfl, hserial i after hij hbefore hlive⟩

/-- An event of another kind is no kill of the health check. -/
theorem kills_cons (hheard : Heard world) {event : Event}
    (hother : ∀ pid child givingUp, event ≠ .healthKilled pid child givingUp) :
    Justified HeardRule (event :: world.log) := by
  refine ⟨?_, hheard.kills⟩
  cases event with
  | healthKilled pid child givingUp => exact absurd rfl (hother pid child givingUp)
  | _ => trivial

/-- A started odin1_driver is disarmed, and the start of another entry touches no child. -/
theorem forkSucceeded (hheard : Heard world) (hsound : Sound world) {mp : ManagedProcess}
    {pid : Pid} {startTime : Time} (hentry : world.processes[j]? = some mp)
    (hfixed : (world.forkSucceeded j mp.name pid startTime).fixed = world.fixed) :
    Heard (world.forkSucceeded j mp.name pid startTime) := by
  have hlog := world.forkSucceeded_log j mp.name pid startTime
  apply hheard.mono hfixed
  · exact fun harmed => (world.forkSucceeded_armed j mp.name pid startTime harmed).2
  · rw [hlog]
    exact List.subset_cons_self _ _
  · rw [hlog]
    exact hheard.kills_cons fun _ _ _ hevent => by cases hevent
  · intro i after hafter hlive harmed hodin
    rw [world.forkSucceeded_processes j mp.name pid startTime] at hafter
    rcases getElem?_modify_cases hafter with ⟨rfl, _⟩ | ⟨_, hbefore⟩
    · -- The started entry is not odin1_driver, for that would be disarmed now.
      obtain ⟨same, hsame, hname⟩ := World.findProcess_some hodin
      cases hentry.symm.trans hsame
      exact absurd hname (world.forkSucceeded_armed j mp.name pid startTime harmed).1
    · obtain ⟨serial, hserial⟩ := World.serialOf_isSome
        (hsound.hasChild after (List.mem_of_getElem? hbefore) hlive)
      exact ⟨after, hbefore, rfl, World.serialOf_append
        (world.forkSucceeded_children j mp.name pid startTime) hserial⟩

end Heard

/-- Only a message of another instance arms the check for an instance unheard. -/
theorem Act.heard {kind : Kind} {world next : World} (hact : Act kind world next)
    (hkind : kind ≠ .stale) (hsound : Sound world) (hheard : Heard world) : Heard next := by
  have hfixed := hact.fixed_eq
  have hpush : ∀ event : Event, world.log ⊆ event :: world.log :=
    fun event => List.subset_cons_self event world.log
  have hkeep : world.log ⊆ world.log := List.Subset.refl _
  cases hact with
  | env =>
      exact hheard.of_same hfixed (fun harmed => harmed) hkeep hheard.kills rfl
        world.serialOf_interact
  | publish =>
      exact hheard.of_same hfixed (fun harmed => harmed) (hpush _)
        (hheard.kills_cons fun _ _ _ hevent => by cases hevent) rfl fun _ => rfl
  | zombieKill _ pid =>
      exact hheard.of_same hfixed (fun harmed => harmed) (hpush _)
        (hheard.kills_cons fun _ _ _ hevent => by cases hevent) rfl (world.serialOf_markKilled pid)
  | fork _ _ j mp pid startTime hentry => exact hheard.forkSucceeded hsound hentry hfixed
  | reset _ j mp =>
      apply hheard.of_same hfixed
      · simp
      · simp
      · rw [World.resetForStart_log]
        exact hheard.kills
      · rw [world.resetForStart_processes j mp.name]
        exact map_modify_same _ fun _ _ => rfl
      · intro pid
        simp [World.serialOf]
  | resetEntries =>
      apply hheard.of_same hfixed (fun harmed => harmed) hkeep hheard.kills ?_ fun _ => rfl
      simp [World.resetEntries, World.note, Function.comp_def]
  | requestStop =>
      exact hheard.of_same hfixed (fun harmed => harmed) (hpush _)
        (hheard.kills_cons fun _ _ _ hevent => by cases hevent)
        (map_modify_same _ fun _ _ => rfl) fun _ => rfl
  | forceKill _ j mp hentry =>
      exact hheard.of_release hfixed (fun harmed => harmed) (hpush _)
        (hheard.kills_cons fun _ _ _ hevent => by cases hevent) rfl (fun _ => rfl)
        fun _ other _ _ _ => world.serialOf_markKilled mp.pid other.pid
  | reapUnmanaged _ child _ hforeign =>
      apply hheard.mono hfixed (fun harmed => harmed) hkeep hheard.kills
      intro i after hafter _ _ _
      exact ⟨after, hafter, rfl,
        world.serialOf_forget (hforeign after (List.mem_of_getElem? hafter))⟩
  | reapStopped _ j mp child _ hentry hpid | reapCrashed _ j mp child _ hentry hpid =>
      exact hheard.of_release hfixed (fun harmed => harmed) hkeep hheard.kills rfl (fun _ => rfl)
        fun i other hij hother hlive =>
          World.serialOf_forget_other hsound.pidDistinct hentry hpid hij hother hlive
  | arm _ serial hcurrent =>
      refine ⟨fun _ i mp hodin hmp hlive => ⟨serial, ?_, List.mem_cons_self⟩,
        hheard.kills_cons fun _ _ _ hevent => by cases hevent⟩
      -- Otherwise the message would be stale.
      by_contra hother
      exact hcurrent ⟨i, mp, hodin, hmp, hlive, hother⟩
  | armStale => exact absurd rfl hkind
  | giveUp _ j mp hodin hentry _ harmed hlive | healthKill _ j mp hodin hentry _ harmed hlive =>
      refine ⟨fun hdisarmed => ?_, ⟨hheard.armed harmed j mp hodin hentry hlive, hheard.kills⟩⟩
      cases hdisarmed
  | forkFail | markRunning | permitRestart | resetBackoff | countRestart | growBackoff =>
      exact hheard.of_same hfixed (fun harmed => harmed) hkeep hheard.kills
        (map_modify_same _ fun _ _ => rfl) fun _ => rfl
  | _ => exact hheard.of_same hfixed (fun harmed => harmed) hkeep hheard.kills rfl fun _ => rfl

theorem heard_initial (config : Config) (nodes : List ProcessNode) (ros steady : Int) :
    Heard (initial config nodes ros steady) where
  armed harmed := by cases harmed
  kills := trivial

/-- The health check kills only an instance of which it has seen a message. -/
def KillsHeard (world : World) : Prop :=
  ∀ later pid child givingUp earlier,
    world.log = later ++ .healthKilled pid child givingUp :: earlier →
    ∃ serial, child = some serial ∧ .delivered serial ∈ earlier

/-- In every run in which no odometry message of another instance reaches the node
while odin1_driver has a child. -/
theorem run_killsHeard (config : Config) (nodes : List ProcessNode) (ros steady : Int)
    (labels : List Label)
    (hlabels : EveryStep step (fun world label => ¬ StaleAt world label)
      (initial config nodes ros steady) labels) :
    KillsHeard (run step (initial config nodes ros steady) labels) := by
  have hheard : Heard (run step (initial config nodes ros steady) labels) := by
    refine run_keeps_acts Heard ?_ (ready_initial config nodes ros steady)
      (heard_initial config nodes ros steady) hlabels
    intro world label kind state next _ hfresh hallowed hsound hheard hact
    apply hact.heard ?_ hsound hheard
    rintro rfl
    exact hfresh hallowed
  intro later pid child givingUp earlier hlog
  have hkills := hheard.kills
  rw [hlog] at hkills
  exact hkills.at

theorem not_staleAt_of_request {world : World} {label : Label}
    (hrequest : label.request ≠ .odometry) : ¬ StaleAt world label :=
  fun hstale => hrequest hstale.1

theorem not_staleAt_of_current {world : World} {label : Label} {serial : Nat} {rest : List Nat}
    (hqueue : world.odometry = serial :: rest)
    (hcurrent : ∀ mp ∈ world.processes, world.serialOf mp.pid = some serial) :
    ¬ StaleAt world label := by
  rintro ⟨_, first, later, hsame, i, mp, _, hentry, _, hother⟩
  rw [hqueue] at hsame
  cases hsame
  exact hother (hcurrent mp (List.mem_of_getElem? hentry))

/-- odin1_driver as in the YAML file. -/
def odinDriver : ProcessNode := { name := "odin1_driver", command := "ros2" }

/-- A tick six seconds later. -/
def stalledTick : Label := ⟨.timer, [{ elapsed := 6000000000 }]⟩

/-- The instance is forked, found RUNNING and heard, and then falls silent. -/
def heardRun : List Label :=
  [⟨.timer, [{}, {}, {}, {}, { fork := some 100 }]⟩, ⟨.timer, []⟩,
    ⟨.idle, [{ published := [0] }]⟩, ⟨.odometry, []⟩, stalledTick]

set_option maxRecDepth 4000 in
theorem killsHeard_heardRun :
    KillsHeard (run step (initial {} [odinDriver] 0 0) heardRun) := by
  apply run_killsHeard
  refine ⟨not_staleAt_of_request (by decide), not_staleAt_of_request (by decide),
    not_staleAt_of_request (by decide), ?_, not_staleAt_of_request (by decide), trivial⟩
  exact not_staleAt_of_current (show _ = 0 :: [] by decide) (by decide)

/-- A message of the first instance is queued while a restart request blocks, and is
delivered once the second instance has been forked. -/
def staleRun : List Label :=
  [⟨.timer, [{}, {}, {}, {}, { fork := some 100 }]⟩, ⟨.timer, []⟩,
    ⟨.restart "odin1_driver", [{ published := [0] }, {}, { exits := [(100, .exited 0)] }, {}, {},
      { fork := some 101 }]⟩,
    ⟨.odometry, []⟩, ⟨.timer, []⟩, stalledTick]

/-- The instance whose message was delivered. -/
def Event.heard? : Event → Option Nat
  | .delivered child => some child
  | _ => none

set_option maxRecDepth 4000 in
/-- The second instance is killed, and only the first one has ever been heard. -/
theorem not_killsHeard_staleRun :
    ¬ ∀ (config : Config) (nodes : List ProcessNode) (ros steady : Int) (labels : List Label),
      KillsHeard (run step (initial config nodes ros steady) labels) := by
  intro hall
  obtain ⟨serial, hchild, hdelivered⟩ := hall {} [odinDriver] 0 0 staleRun
    ((run step (initial {} [odinDriver] 0 0) staleRun).log.take 1) 101 (some 1) false
    ((run step (initial {} [odinDriver] 0 0) staleRun).log.drop 2) (by decide)
  have hothers : ∀ event ∈ (run step (initial {} [odinDriver] 0 0) staleRun).log.drop 2,
      event.heard? ≠ some 1 := by decide
  cases hchild
  exact hothers _ hdelivered rfl

end AcflyRos.Daemon

import AcflyRos.Daemon.Health
import AcflyRos.Daemon.HealthCheck
import AcflyRos.Daemon.NamedStop

/-! # Giving up on odin1_driver

Each stall that the health check kills for is counted, and a stall with the count at its limit
is the last one. Then odin1_driver neither restarts nor waits to be started, until it is asked
for by name or together with all others.
-/

namespace AcflyRos.Daemon

open AcflyRos.Transition AcflyRos.Table

/-- How often the health check has killed odin1_driver and left the restart to the backoff. -/
def World.healthKills (world : World) : Nat := world.verdicts.count false

/-- The count of failures is started over. -/
def Resets (world : World) (label : Label) : Prop :=
  (step world label).odinHealthFailCount < world.odinHealthFailCount

instance (world : World) (label : Label) : Decidable (Resets world label) :=
  inferInstanceAs (Decidable (_ < _))

/-- The health check finds a stall. -/
def StallsAt (world : World) (label : Label) : Prop :=
  ∃ checked i mp, Checks world label checked ∧ checked.Stalled i mp

/-- A stall is killed for, with the count at its limit for the last time, and nothing else is. -/
structure Decides (world : World) (label : Label) : Prop where
  stall : StallsAt world label → (step world label).verdicts =
    decide (world.config.odinHealthMaxFails ≤ world.odinHealthFailCount) :: world.verdicts
  other : ¬ StallsAt world label → (step world label).verdicts = world.verdicts

/-- The entry is not restarted by itself, and does not wait to be started. -/
def Retired (i : Nat) (world : World) : Prop :=
  ∀ mp, world.processes[i]? = some mp → mp.autoRestart = false ∧ mp.state ≠ .pending

/-! ## Counting -/

section Step

variable {world : World} {label : Label}

theorem step_of_not_stalls (hready : Ready world) (hnone : ¬ StallsAt world label) :
    ((step world label).odinHealthFailCount = world.odinHealthFailCount ∨
      (step world label).odinHealthFailCount = 0) ∧
      (step world label).verdicts = world.verdicts := by
  by_cases hchecks : ∃ checked, Checks world label checked
  · obtain ⟨checked, hchecks⟩ := hchecks
    have hbefore := hchecks.carries
    have hafter := hchecks.step_carries
    rcases checked.checkOdinHealth_cases with
      ⟨hcarries, _⟩ | ⟨_, hforgiven, _⟩ | ⟨i, mp, hstalled, _⟩
    · have hall := hbefore.trans (hcarries.trans hafter)
      exact ⟨Or.inl hall.failCount, hall.verdicts⟩
    · rw [hforgiven] at hafter
      exact ⟨Or.inr hafter.failCount, hafter.verdicts.trans hbefore.verdicts⟩
    · exact absurd ⟨checked, i, mp, hchecks, hstalled⟩ hnone
  · cases step_elsewhere hready (not_exists.mp hchecks) with
    | carried hcarries => exact ⟨Or.inl hcarries.failCount, hcarries.verdicts⟩
    | manual hcarries => exact ⟨Or.inr hcarries.failCount, hcarries.verdicts⟩
    | delivered serial rest _ _ _ hstep =>
        rw [hstep]
        exact ⟨Or.inl rfl, rfl⟩

theorem step_of_stalls (hstalls : StallsAt world label) :
    if world.config.odinHealthMaxFails ≤ world.odinHealthFailCount then
      (step world label).odinHealthFailCount = world.odinHealthFailCount ∧
        (step world label).verdicts = true :: world.verdicts
    else
      (step world label).odinHealthFailCount = world.odinHealthFailCount + 1 ∧
        (step world label).verdicts = false :: world.verdicts := by
  obtain ⟨checked, i, mp, hchecks, hstalled⟩ := hstalls
  have hbefore := hchecks.carries
  have hafter := hchecks.step_carries
  rw [← hchecks.config, ← hbefore.failCount, ← hbefore.verdicts]
  rw [World.checkOdinHealth_of_stalled hstalled] at hafter
  split at hafter
  next hlimit =>
    rw [if_pos hlimit]
    exact ⟨hafter.failCount, hafter.verdicts⟩
  next hlimit =>
    rw [if_neg hlimit]
    exact ⟨hafter.failCount, hafter.verdicts⟩

theorem step_decides (hready : Ready world) : Decides world label where
  stall hstalls := by
    have hcounts := step_of_stalls hstalls
    split at hcounts
    next hlimit => rw [hcounts.2, decide_eq_true hlimit]
    next hroom => rw [hcounts.2, decide_eq_false hroom]
  other hnone := (step_of_not_stalls hready hnone).2

/-- The count stays within its limit. -/
def Limited (world : World) : Prop :=
  0 ≤ world.odinHealthFailCount ∧ world.odinHealthFailCount ≤ world.config.odinHealthMaxFails

theorem step_config (hready : Ready world) : (step world label).config = world.config :=
  acts_config (step_acts label hready)

theorem step_limited (hready : Ready world) (h : Limited world) : Limited (step world label) := by
  unfold Limited at h ⊢
  rw [step_config hready]
  by_cases hstalls : StallsAt world label
  · have hcounts := step_of_stalls hstalls
    split at hcounts
    · rwa [hcounts.1]
    · rw [hcounts.1]
      omega
  · rcases (step_of_not_stalls hready hstalls).1 with hsame | hzero
    · rwa [hsame]
    · rw [hzero]
      omega

/-- Unless the count is started over, it counts the kills. -/
theorem step_healthKills (hready : Ready world) (h : Limited world)
    (hkeeps : ¬ Resets world label) :
    ((step world label).healthKills : Int) - world.healthKills =
      (step world label).odinHealthFailCount - world.odinHealthFailCount := by
  unfold Resets at hkeeps
  unfold World.healthKills
  by_cases hstalls : StallsAt world label
  · have hcounts := step_of_stalls hstalls
    split at hcounts
    · rw [hcounts.1, hcounts.2, List.count_cons_of_ne (by decide)]
      omega
    · rw [hcounts.1, hcounts.2, List.count_cons_self]
      push_cast
      omega
  · obtain ⟨hcount, hverdicts⟩ := step_of_not_stalls hready hstalls
    rw [hverdicts]
    have hzero := h.1
    omega

end Step

theorem run_limited {world : World} (labels : List Label) (hready : Ready world)
    (h : Limited world) : Limited (run step world labels) :=
  (run_invariant step (fun world => Ready world ∧ Limited world)
    (fun _ label h => ⟨step_ready label h.1, step_limited h.1 h.2⟩) labels ⟨hready, h⟩).2

theorem run_config {world : World} (labels : List Label) (hready : Ready world) :
    (run step world labels).config = world.config :=
  (run_invariant step (fun state => Ready state ∧ state.config = world.config)
    (fun _ label h => ⟨step_ready label h.1, (step_config h.1).trans h.2⟩) labels
    ⟨hready, rfl⟩).2

theorem run_healthKills {world : World} {labels : List Label} (hready : Ready world)
    (h : Limited world)
    (hlabels : EveryStep step (fun world label => ¬ Resets world label) world labels) :
    ((run step world labels).healthKills : Int) - world.healthKills =
      (run step world labels).odinHealthFailCount - world.odinHealthFailCount := by
  induction labels generalizing world with
  | nil => simp
  | cons label rest ih =>
      have hlater := ih (step_ready label hready) (step_limited hready h) hlabels.2
      have hstep := step_healthKills hready h hlabels.1
      rw [run_cons]
      omega

/-! ## After giving up -/

theorem retired_of_modify {i j : Nat} {world next : World}
    {change : ManagedProcess → ManagedProcess}
    (hprocesses : next.processes = world.processes.modify j change) (h : Retired i world)
    (hchange : ∀ mp, world.processes[j]? = some mp → mp.autoRestart = false → mp.state ≠ .pending →
      (change mp).autoRestart = false ∧ (change mp).state ≠ .pending) : Retired i next := by
  intro after hafter
  rw [hprocesses] at hafter
  rcases getElem?_modify_cases hafter with ⟨rfl, mp, hmp, rfl⟩ | ⟨_, hmp⟩
  · exact hchange mp hmp (h mp hmp).1 (h mp hmp).2
  · exact h after hmp

/-- No guard of a start lets such an entry pass. -/
theorem not_spawnGuard_of_retired {world : World} {mp : ManagedProcess} {kind : Kind}
    (hauto : mp.autoRestart = false) (hstate : mp.state ≠ .pending) :
    ¬ world.SpawnGuard mp kind := by
  cases kind <;> simp [World.SpawnGuard, hauto, hstate]

theorem Act.retired {kind : Kind} {world next : World} (hact : Act kind world next) {i : Nat}
    (hkind : kind ≠ .manual i ∧ kind ≠ .displace i) (hall : kind ≠ .manualAll)
    (h : Retired i world) : Retired i next ∧ next.forksOf i = world.forksOf i := by
  cases hact with
  | fork _ _ j mp pid startTime hentry _ hguard =>
      refine ⟨retired_of_modify (world.forkSucceeded_processes j mp.name pid startTime) h ?_,
        World.forksOf_cons (world.forkSucceeded_log j mp.name pid startTime) ?_⟩
      · intro same hsame hauto hstate
        cases hentry.symm.trans hsame
        exact absurd hguard (not_spawnGuard_of_retired hauto hstate)
      · rintro child pid table ⟨rfl, _⟩
        obtain ⟨hauto, hstate⟩ := h mp hentry
        exact not_spawnGuard_of_retired hauto hstate hguard
  | forkFail _ _ j mp _ hentry hguard =>
      refine ⟨retired_of_modify rfl h fun same hsame hauto hstate => ?_, rfl⟩
      cases hentry.symm.trans hsame
      exact absurd hguard (not_spawnGuard_of_retired hauto hstate)
  | reset _ j mp =>
      have hother : j ≠ i := by
        rintro rfl
        split at hkind
        · exact hkind.2 rfl
        · exact hkind.1 rfl
      refine ⟨fun after hafter => ?_, by simp [World.forksOf]⟩
      rw [world.resetForStart_processes j mp.name, List.getElem?_modify_ne _ _ hother] at hafter
      exact h after hafter
  | resetEntries | permitRestart => exact absurd rfl hall
  | requestStop | forceKill =>
      exact ⟨retired_of_modify rfl h fun _ _ hauto _ => ⟨hauto, by simp⟩,
        World.forksOf_cons rfl fun _ _ _ hevent => by cases hevent⟩
  | reapStopped | reapCrashed | markRunning =>
      exact ⟨retired_of_modify rfl h fun _ _ hauto _ => ⟨hauto, by simp⟩, rfl⟩
  | resetBackoff | countRestart | growBackoff =>
      exact ⟨retired_of_modify rfl h fun _ _ hauto hstate => ⟨hauto, hstate⟩, rfl⟩
  | giveUp =>
      exact ⟨retired_of_modify rfl h fun _ _ _ hstate => ⟨rfl, hstate⟩,
        World.forksOf_cons rfl fun _ _ _ hevent => by cases hevent⟩
  | publish | zombieKill | arm | armStale | healthKill =>
      exact ⟨h, World.forksOf_cons rfl fun _ _ _ hevent => by cases hevent⟩
  | _ => exact ⟨h, rfl⟩

theorem forksOf_of_vitals {world next : World} (hvitals : next.vitals = world.vitals) (i : Nat) :
    next.forksOf i = world.forksOf i := by
  have hfilter : ∀ world : World,
      world.forksOf i = { world with log := world.vitals.events }.forksOf i := by
    intro world
    unfold World.forksOf World.vitals
    dsimp only
    rw [List.countP_filter]
    congr 1
    funext event
    cases event <;> simp [Event.vital]
  rw [hfilter next, hfilter world, hvitals]
  rfl

/-- The tick in which the check gives up does not fork odin1_driver before or after. -/
theorem step_retired {world checked : World} {label : Label} (hready : Ready world)
    (hchecks : Checks world label checked) {i : Nat} {mp : ManagedProcess}
    (hstalled : checked.Stalled i mp)
    (hlimit : world.config.odinHealthMaxFails ≤ world.odinHealthFailCount) :
    Retired i (step world label) ∧ (step world label).forksOf i = world.forksOf i := by
  have hgaveUp : World.checkOdinHealth checked = World.giveUp i mp.pid checked.interact := by
    rw [← hchecks.config, ← hchecks.carries.failCount] at hlimit
    rw [World.checkOdinHealth_of_stalled hstalled, if_pos hlimit]
  have hidle : checked.deadline = none := by
    have hbefore := acts_deadline World.Ticks.ordinary (world.entered label).beforeHealth_acts
    rw [← hchecks.state] at hbefore
    exact hbefore.trans (hready.idle hchecks.up).1
  have hacts := hchecks.step_acts (by rw [hgaveUp]; exact hidle)
  rw [hgaveUp] at hacts
  have hretired : Retired i (World.giveUp i mp.pid checked.interact) := by
    intro after hafter
    rcases getElem?_modify_cases hafter with ⟨_, same, hsame, rfl⟩ | ⟨hne, _⟩
    · cases hstalled.2.1.symm.trans hsame
      exact ⟨rfl, by simp [hstalled.2.2.1]⟩
    · exact absurd rfl hne
  have hforks : (World.giveUp i mp.pid checked.interact).forksOf i = world.forksOf i :=
    (World.forksOf_cons rfl fun _ _ _ hevent => by cases hevent).trans
      (forksOf_of_vitals hchecks.vitals i)
  refine hacts.keeps (fun later => Retired i later ∧ later.forksOf i = world.forksOf i) ?_
    ⟨hretired, hforks⟩
  rintro kind before after hkind hact ⟨hbefore, hsame⟩
  obtain ⟨hafter, hnone⟩ := hact.retired ⟨by rintro rfl; exact hkind, by rintro rfl; exact hkind⟩
    (by rintro rfl; exact hkind) hbefore
  exact ⟨hafter, hnone.trans hsame⟩

/-! ## Runs -/

/-- The health check cannot thrash: kills are as few as the limit says, and the stall after them
is the end of odin1_driver until someone asks for it. -/
structure Bounded (start : World) (labels : List Label) : Prop where
  limit : (run step start labels).odinHealthFailCount ≤ start.config.odinHealthMaxFails
  kills : ∀ early late, labels = early ++ late →
    EveryStep step (fun world label => ¬ Resets world label) (run step start early) late →
    ((run step start labels).healthKills : Int) ≤
      (run step start early).healthKills + start.config.odinHealthMaxFails
  decides : EveryStep step Decides start labels
  final : ∀ early label late i, labels = early ++ label :: late →
    start.findProcess odin = some i →
    (run step start (early ++ [label])).verdicts = true :: (run step start early).verdicts →
    (∀ later ∈ late, later.Leaves odin) →
    (run step start labels).forksOf i = (run step start early).forksOf i

theorem run_bounded (config : Config) (hmax : 0 ≤ config.odinHealthMaxFails)
    (nodes : List ProcessNode) (ros steady : Int) (labels : List Label) :
    Bounded (initial config nodes ros steady) labels := by
  have hready := ready_initial config nodes ros steady
  have hlimited : Limited (initial config nodes ros steady) := ⟨le_rfl, hmax⟩
  have hconfig : (initial config nodes ros steady).config = config := rfl
  generalize initial config nodes ros steady = start at *
  refine ⟨?_, ?_, ?_, ?_⟩
  · rw [← run_config labels hready]
    exact (run_limited labels hready hlimited).2
  · rintro early late rfl hlate
    have hearly := run_limited early hready hlimited
    have hlast := run_limited (early ++ late) hready hlimited
    rw [Limited, run_config _ hready] at hlast
    have hkills := run_healthKills (run_ready early hready) hearly hlate
    rw [← run_append] at hkills
    have hnonneg := hearly.1
    omega
  · exact everyStep_of_invariant step Ready (fun _ label h => step_ready label h)
      (fun _ _ h => step_decides h) labels hready
  · rintro early label late i rfl hfind hverdict hleaves
    have hready' := run_ready early hready
    rw [run_append, run_cons, run_nil] at hverdict
    have hnames := run_names early hready
    rw [run_append, run_cons]
    generalize run step start early = world at *
    have hfind' : world.findProcess odin = some i :=
      (World.findProcess_congr hnames odin).trans hfind
    -- It is the check that has given up.
    have hstalls : StallsAt world label := by
      by_contra hnone
      rw [(step_decides hready').other hnone] at hverdict
      exact List.cons_ne_self _ _ hverdict.symm
    have hlimit : world.config.odinHealthMaxFails ≤ world.odinHealthFailCount := by
      rw [(step_decides hready').stall hstalls] at hverdict
      exact of_decide_eq_true (List.cons.inj hverdict).1
    obtain ⟨checked, j, mp, hchecks, hstalled⟩ := hstalls
    have hsame : checked.findProcess odin = world.findProcess odin := by
      have hacts := (world.entered label).beforeHealth_acts
      rw [← hchecks.state] at hacts
      exact World.findProcess_congr (acts_names hacts) odin
    have hodin : j = i := Option.some.inj (hstalled.1.symm.trans (hsame.trans hfind'))
    subst hodin
    obtain ⟨hretired, hforks⟩ := step_retired hready' hchecks hstalled hlimit
    have hnames' : (step world label).findProcess odin = some j :=
      (World.findProcess_congr (step_names label hready') odin).trans hfind'
    refine (run_keeps_leaving (fun later => Retired j later ∧ later.forksOf j = world.forksOf j)
      ?_ (step_ready label hready') hleaves hnames' ⟨hretired, hforks⟩).2
    rintro kind before after hkind hall _ ⟨hbefore, hsame⟩ hact
    obtain ⟨hafter, hnone⟩ := hact.retired hkind hall hbefore
    exact ⟨hafter, hnone.trans hsame⟩

/-- After the first stall, the next instance is heard as well and falls silent. -/
def heardTwice : List Label :=
  heardRun ++ [⟨.idle, [{ exits := [(100, .signaled 9)] }]⟩, ⟨.timer, []⟩,
    ⟨.timer, [{ elapsed := 2000000000 }, {}, {}, {}, { fork := some 101 }]⟩, ⟨.timer, []⟩,
    ⟨.idle, [{ published := [1] }]⟩, ⟨.odometry, []⟩, stalledTick]

set_option maxRecDepth 4000 in
/-- With a limit of one, the first stall is answered by a restart and the second is the last. -/
theorem bounded_heardRun :
    Bounded (initial { odinHealthMaxFails := 1 } [odinDriver] 0 0) heardTwice ∧
      (run step (initial { odinHealthMaxFails := 1 } [odinDriver] 0 0) heardTwice).verdicts =
        [true, false] :=
  ⟨run_bounded { odinHealthMaxFails := 1 } (by decide) [odinDriver] 0 0 heardTwice, by decide⟩

end AcflyRos.Daemon

import AcflyRos.Foundation.Chains
import AcflyRos.Daemon.CalmTick
import AcflyRos.Daemon.Gating

/-! # The ordered start-up

As long as nothing goes wrong, a process is started one tick after the last of its
dependencies. How long it waits is the length of its longest chain of dependencies; the
order of the entries in the YAML file plays no part in it.
-/

namespace AcflyRos.Daemon

open AcflyRos.Transition AcflyRos.Table AcflyRos.Chains

/-- The tick sees no exits, and the entries it starts have their topics and are forked. -/
structure Favourable (world : World) (label : Label) : Prop where
  timer : label.request = .timer
  exits : ∀ beat ∈ label.script, beat.exits = []
  granted : World.GrantsAll (world.entered label).beforePending.indices
    (world.entered label).beforePending

/-! ## One tick -/

theorem Calm.entered {world : World} (h : Calm world) {label : Label}
    (hexits : ∀ beat ∈ label.script, beat.exits = []) : Calm (world.entered label) :=
  ⟨h.up, h.signal, h.disarmed, h.clock, h.alive, hexits, h.rises⟩

theorem step_timer {world : World} {label : Label} (hup : world.mode = .up)
    (htimer : label.request = .timer) :
    step world label = World.onTimer (world.entered label) := by
  unfold step
  rw [if_pos hup, htimer]
  unfold dispatch World.entered
  with_reducible rfl

/-- What one tick makes of the states. -/
theorem step_calm {world : World} {label : Label} (h : Calm world)
    (hfavourable : Favourable world label) :
    Calm (step world label) ∧ ∀ (i : Nat) (mp : ManagedProcess), world.processes[i]? = some mp →
      ∃ after : ManagedProcess, (step world label).processes[i]? = some after ∧
        after.state = if mp.state ≠ .pending then .running
          else if world.promoteAll.dependenciesRunning mp = true then .starting else .pending := by
  obtain ⟨hcalm, hstates⟩ :=
    World.onTimer_calm (h.entered hfavourable.exits) hfavourable.granted
  rw [step_timer h.up hfavourable.timer]
  refine ⟨hcalm, fun i mp hmp => ?_⟩
  obtain ⟨after, hafter, hstate⟩ := hstates i mp hmp
  have hruns : (world.entered label).promoteAll.runStates = world.promoteAll.runStates := rfl
  rw [World.dependenciesRunning_congr mp hruns] at hstate
  exact ⟨after, hafter, hstate⟩

/-! ## Dependencies -/

/-- One entry of the YAML file names the other as a dependency. -/
def DependsOn (nodes : List ProcessNode) (i j : Fin nodes.length) : Prop :=
  nodes[j].name ∈ nodes[i].dependencies

instance (nodes : List ProcessNode) (i j : Fin nodes.length) : Decidable (DependsOn nodes i j) :=
  inferInstanceAs (Decidable (_ ∈ _))

/-- Names are distinct, and every dependency is the name of an entry. -/
structure WellNamed (nodes : List ProcessNode) : Prop where
  distinct : (nodes.map (·.name)).Nodup
  known : ∀ node ∈ nodes, ∀ dep ∈ node.dependencies, ∃ other ∈ nodes, other.name = dep

/-- The entries are those of the YAML file, as far as names and dependencies go. -/
def Configured (nodes : List ProcessNode) (world : World) : Prop :=
  world.fixed = nodes.map fun node => (node.name, node.dependencies)

namespace Configured

variable {nodes : List ProcessNode} {world : World}

theorem entry (h : Configured nodes world) (i : Fin nodes.length) :
    ∃ mp, world.processes[i.val]? = some mp ∧ mp.name = nodes[i].name ∧
      mp.dependencies = nodes[i].dependencies := by
  have hsame := congrArg (fun entries => entries[i.val]?) h
  simp only [World.fixed, List.getElem?_map, List.getElem?_eq_getElem i.isLt, Option.map_some]
    at hsame
  obtain ⟨mp, hmp, hpair⟩ := Option.map_eq_some_iff.mp hsame
  exact ⟨mp, hmp, congrArg Prod.fst hpair, congrArg Prod.snd hpair⟩

theorem findProcess (h : Configured nodes world) (hnamed : WellNamed nodes)
    (i : Fin nodes.length) : world.findProcess nodes[i].name = some i.val := by
  have hnames : world.names = nodes.map (·.name) := by
    have hfirst := congrArg (List.map Prod.fst) h
    simpa [World.fixed, World.names, Function.comp_def] using hfirst
  rw [World.findProcess_names, hnames, List.findIdx?_eq_some_iff_getElem]
  refine ⟨by simp, by simp, fun j hj hsame => ?_⟩
  have hlt : j < (nodes.map (·.name)).length := by
    rw [List.length_map]
    exact hj.trans i.isLt
  have hlt' : i.val < (nodes.map (·.name)).length := by simp
  have hsame' : (nodes.map (·.name))[j] = (nodes.map (·.name))[i.val] := by simpa using hsame
  have hindex : j = i.val := hnamed.distinct.getElem_inj_iff.mp hsame'
  omega

/-- The check of `dependencies_running`, by indices. -/
theorem dependenciesRunning_iff (h : Configured nodes world) (hnamed : WellNamed nodes)
    (i : Fin nodes.length) {mp : ManagedProcess} (hmp : world.processes[i.val]? = some mp) :
    world.dependenciesRunning mp = true ↔ ∀ j, DependsOn nodes i j →
      ∃ other, world.processes[j.val]? = some other ∧ other.state = .running := by
  obtain ⟨same, hsame, _, hdeps⟩ := h.entry i
  cases hmp.symm.trans hsame
  unfold World.dependenciesRunning
  rw [List.all_eq_true, hdeps]
  constructor
  · intro hall j hdep
    obtain ⟨other, hother, _⟩ := h.entry j
    have hrunning := hall _ hdep
    simp only [h.findProcess hnamed j, hother, Option.any_some, beq_iff_eq] at hrunning
    exact ⟨other, hother, hrunning⟩
  · intro hall dep hdep
    -- A dependency is looked up by its name, which only one entry has.
    obtain ⟨node, hnode, rfl⟩ := hnamed.known _ (List.getElem_mem i.isLt) dep hdep
    obtain ⟨j, hj, rfl⟩ := List.mem_iff_getElem.mp hnode
    obtain ⟨other, hother, hrunning⟩ := hall ⟨j, hj⟩ hdep
    have hfind := h.findProcess hnamed ⟨j, hj⟩
    simp only [Fin.getElem_fin] at hfind hother
    simp [hfind, hother, hrunning]

end Configured

/-! ## Runs -/

section Waves

variable {nodes : List ProcessNode} {world : World}

/-- The states after that many ticks, by the chains of dependencies. -/
structure InWave (nodes : List ProcessNode) (ticks : Nat) (i : Fin nodes.length)
    (state : ProcessState) : Prop where
  pending : HasChain (DependsOn nodes) ticks i → state = .pending
  starting : ∀ earlier, ticks = earlier + 1 → HasChain (DependsOn nodes) earlier i →
    ¬ HasChain (DependsOn nodes) ticks i → state = .starting
  running : ∀ earlier, ticks = earlier + 1 → ¬ HasChain (DependsOn nodes) earlier i →
    state = .running

/-- A process has been started unless there is a chain as long as there were ticks. -/
theorem InWave.pending_iff {ticks : Nat} {i : Fin nodes.length} {state : ProcessState}
    (h : InWave nodes ticks i state) : state = .pending ↔ HasChain (DependsOn nodes) ticks i := by
  constructor
  · intro hpending
    by_contra hchain
    cases ticks with
    | zero => exact hchain trivial
    | succ earlier =>
        by_cases hearlier : HasChain (DependsOn nodes) earlier i
        · have hstarting := h.starting earlier rfl hearlier hchain
          simp [hpending] at hstarting
        · have hrunning := h.running earlier rfl hearlier
          simp [hpending] at hrunning
  · exact h.pending

/-- The states of all entries after that many ticks. -/
def Waves (nodes : List ProcessNode) (ticks : Nat) (world : World) : Prop :=
  ∀ (i : Fin nodes.length) (mp : ManagedProcess), world.processes[i.val]? = some mp →
    InWave nodes ticks i mp.state

/-- After `check_started` a dependency is RUNNING unless it had not been started. -/
theorem Waves.dependenciesRunning_iff {ticks : Nat} (h : Waves nodes ticks world)
    (hcalm : Calm world) (hconfigured : Configured nodes world) (hnamed : WellNamed nodes)
    (i : Fin nodes.length) {mp : ManagedProcess} (hmp : world.processes[i.val]? = some mp) :
    world.promoteAll.dependenciesRunning mp = true ↔
      ¬ HasChain (DependsOn nodes) (ticks + 1) i := by
  have hpromoted : world.promoteAll.processes[i.val]? = some (World.promote mp) := by
    simp [World.promoteAll, hmp]
  have hsame : Configured nodes world.promoteAll := by
    rw [Configured, ← hconfigured]
    simp only [World.fixed, World.promoteAll, List.map_map]
    apply List.map_congr_left
    intro mp _
    simp only [Function.comp_apply, World.promote]
    split <;> rfl
  rw [← World.dependenciesRunning_promote, hsame.dependenciesRunning_iff hnamed i hpromoted]
  -- What was STARTING before the tick counts as well.
  have hother : ∀ j : Fin nodes.length, (∃ other, world.promoteAll.processes[j.val]? = some other ∧
      other.state = .running) ↔ ¬ HasChain (DependsOn nodes) ticks j := by
    intro j
    obtain ⟨other, hentry, _⟩ := hconfigured.entry j
    have hstate := World.promote_state (hcalm.rises other (List.mem_of_getElem? hentry))
    rw [← (h j other hentry).pending_iff]
    simp only [World.promoteAll, List.getElem?_map, hentry, Option.map_some, Option.some.injEq,
      exists_eq_left', hstate]
    by_cases hpending : other.state = .pending <;> simp [hpending]
  simp only [hother, HasChain, not_exists, not_and]

/-- The next tick starts the next wave. -/
theorem Waves.step {ticks : Nat} (h : Waves nodes ticks world) (hcalm : Calm world)
    (hconfigured : Configured nodes world) (hnamed : WellNamed nodes) {label : Label}
    (hfavourable : Favourable world label) : Waves nodes (ticks + 1) (step world label) := by
  intro i after hafter
  obtain ⟨mp, hmp, _⟩ := hconfigured.entry i
  obtain ⟨same, hsame, hstate⟩ := (step_calm hcalm hfavourable).2 i.val mp hmp
  cases hafter.symm.trans hsame
  have hdeps := h.dependenciesRunning_iff hcalm hconfigured hnamed i hmp
  have hpending := (h i mp hmp).pending_iff
  constructor
  · intro hchain
    have hwaiting := hpending.mpr (hchain.le (Nat.le_succ ticks))
    have hnot := mt hdeps.mp (not_not_intro hchain)
    rw [hstate, if_neg (not_not_intro hwaiting), if_neg hnot]
  · rintro earlier hticks hearlier hchain
    cases hticks
    have hwaiting := hpending.mpr hearlier
    rw [hstate, if_neg (not_not_intro hwaiting), if_pos (hdeps.mpr hchain)]
  · rintro earlier hticks hearlier
    cases hticks
    rw [hstate, if_pos (mt hpending.mp hearlier)]

theorem run_inWave {ticks : Nat} {labels : List Label} (hready : Ready world) (hcalm : Calm world)
    (hconfigured : Configured nodes world) (hnamed : WellNamed nodes)
    (h : Waves nodes ticks world) (hlabels : EveryStep step Favourable world labels) :
    Configured nodes (run step world labels) ∧
      Waves nodes (ticks + labels.length) (run step world labels) := by
  induction labels generalizing world ticks with
  | nil => exact ⟨hconfigured, h⟩
  | cons label rest ih =>
      have hfixed : (step world label).fixed = world.fixed := acts_fixed (step_acts label hready)
      have hnext := ih (step_ready label hready) (step_calm hcalm hlabels.1).1
        (hfixed.trans hconfigured) (h.step hcalm hconfigured hnamed hlabels.1) hlabels.2
      rwa [Nat.add_assoc, Nat.add_comm 1] at hnext

end Waves

theorem calm_initial (config : Config) (nodes : List ProcessNode) (ros steady : Int) :
    Calm (initial config nodes ros steady) where
  up := rfl
  signal := rfl
  disarmed := rfl
  clock := rfl
  alive := by simp [initial]
  quiet := by simp [initial]
  rises := by
    intro mp hmp
    obtain ⟨node, _, rfl⟩ := List.mem_map.mp hmp
    exact ⟨Or.inl rfl, rfl, le_refl _, fun hstate => absurd rfl hstate⟩

theorem configured_initial (config : Config) (nodes : List ProcessNode) (ros steady : Int) :
    Configured nodes (initial config nodes ros steady) := by
  simp [Configured, World.fixed, initial, Function.comp_def, loadProcess]

theorem waves_initial (config : Config) (nodes : List ProcessNode) (ros steady : Int) :
    Waves nodes 0 (initial config nodes ros steady) := by
  intro i mp hmp
  have hpending := (initial_entries (List.mem_of_getElem? hmp)).2.1
  refine ⟨fun _ => hpending, ?_, ?_⟩
  · intro earlier hticks
    omega
  · intro earlier hticks
    omega

/-- The process of that entry waits for as many ticks as its longest chain of dependencies is
long, is started by the next one, and is RUNNING from then on. -/
def StartsInWave (nodes : List ProcessNode) (ticks : Nat) (world : World)
    (i : Fin nodes.length) : Prop :=
  ∃ depth mp, LongestChain (DependsOn nodes) depth i ∧ world.processes[i.val]? = some mp ∧
    mp.name = nodes[i].name ∧
      (ticks ≤ depth → mp.state = .pending) ∧
      (ticks = depth + 1 → mp.state = .starting) ∧
      (depth + 1 < ticks → mp.state = .running)

/-- In every run of ticks from the start in which nothing goes wrong. -/
theorem run_waves (config : Config) (nodes : List ProcessNode) (ros steady : Int)
    (labels : List Label) (hnamed : WellNamed nodes)
    (hacyclic : ∀ i, ¬ Relation.TransGen (DependsOn nodes) i i)
    (hlabels : EveryStep step Favourable (initial config nodes ros steady) labels)
    (i : Fin nodes.length) :
    StartsInWave nodes labels.length (run step (initial config nodes ros steady) labels) i := by
  obtain ⟨depth, hdepth⟩ := exists_longestChain hacyclic i
  obtain ⟨hconfigured, hwaves⟩ := run_inWave (ready_initial config nodes ros steady)
    (calm_initial config nodes ros steady) (configured_initial config nodes ros steady) hnamed
    (waves_initial config nodes ros steady) hlabels
  rw [Nat.zero_add] at hwaves
  obtain ⟨mp, hmp, hname, _⟩ := hconfigured.entry i
  have hwave := hwaves i mp hmp
  refine ⟨depth, mp, hdepth, hmp, hname, ?_, ?_, ?_⟩
  · intro hle
    exact hwave.pending ((hdepth.hasChain_iff _).mpr hle)
  · intro hnext
    apply hwave.starting depth hnext hdepth.1
    rw [hnext]
    exact hdepth.2
  · intro hlater
    apply hwave.running (labels.length - 1) (by omega)
    rw [hdepth.hasChain_iff]
    omega

/-- The dependent entry comes first in the list. -/
def dependentFirst : List ProcessNode := chain.reverse

/-- One fork in each of the first two ticks. -/
def startupRun : List Label :=
  [⟨.timer, [{}, {}, {}, {}, { fork := some 100 }]⟩,
    ⟨.timer, [{}, {}, {}, {}, { fork := some 101 }]⟩, ⟨.timer, []⟩]

theorem wellNamed_dependentFirst : WellNamed dependentFirst := ⟨by decide, by decide⟩

theorem acyclic_dependentFirst (i : Fin dependentFirst.length) :
    ¬ Relation.TransGen (DependsOn dependentFirst) i i :=
  acyclic_of_rank (fun i : Fin dependentFirst.length => 1 - i.val) (by decide) i

set_option maxRecDepth 8000 in
theorem waves_startupRun :
    StartsInWave dependentFirst 3 (run step (initial {} dependentFirst 0 0) startupRun)
      ⟨0, by decide⟩ := by
  apply run_waves {} dependentFirst 0 0 startupRun wellNamed_dependentFirst acyclic_dependentFirst
  exact ⟨⟨rfl, by decide, by decide⟩, ⟨rfl, by decide, by decide⟩, ⟨rfl, by decide, by decide⟩,
    trivial⟩

end AcflyRos.Daemon

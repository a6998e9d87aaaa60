import AcflyRos.Daemon.Steps

/-! # Automatic starts and dependencies

`handle_pending` starts an entry only when all of its dependencies are RUNNING.
`handle_restarts` does not ask: it starts a crashed entry as soon as its backoff
has expired, whatever has become of its dependencies in the meantime.
-/

namespace AcflyRos.Daemon

open AcflyRos.Transition

/-- Every fork among those events found the dependencies of its entry RUNNING. -/
def GatedForks (processes : List ManagedProcess) (events : List Event) : Prop :=
  ∀ i child pid table, .forked i child pid table ∈ events →
    ∀ mp, processes[i]? = some mp → ∀ dep ∈ mp.dependencies, table.lookup dep = some .running

/-- The forks of one callback are gated. -/
def GatedStep (world : World) (label : Label) : Prop :=
  ∃ events, (step world label).log = events ++ world.log ∧ GatedForks world.processes events

/-- The table recorded with a fork answers as `find_process` does. -/
theorem lookup_table (processes : List ManagedProcess) (name : String) :
    (processes.map fun mp => (mp.name, mp.state)).lookup name =
      (processes.find? (·.name == name)).map (·.state) := by
  induction processes with
  | nil => rfl
  | cons mp rest ih =>
      by_cases hname : mp.name = name
      · simp [hname]
      · have hbeq : (mp.name == name) = false := beq_eq_false_iff_ne.mpr hname
        have hbeq' : (name == mp.name) = false := beq_eq_false_iff_ne.mpr (Ne.symm hname)
        simp only [List.map_cons, List.lookup_cons, List.find?_cons, hbeq, hbeq', ih]

theorem World.lookup_of_dependenciesRunning {world : World} {mp : ManagedProcess}
    (hrunning : world.dependenciesRunning mp = true) {dep : String} (hdep : dep ∈ mp.dependencies) :
    (world.processes.map fun mp => (mp.name, mp.state)).lookup dep = some .running := by
  rw [dependenciesRunning_eq, List.all_eq_true] at hrunning
  have hfound := hrunning dep hdep
  rw [runStates, List.find?_map, Function.comp_def] at hfound
  rw [lookup_table]
  cases hfind : world.processes.find? (·.name == dep) with
  | none => simp [hfind] at hfound
  | some found => simpa [hfind] using hfound

theorem dependencies_of_fixed {world next : World} (hfixed : next.fixed = world.fixed) {i : Nat}
    {before after : ManagedProcess} (hbefore : world.processes[i]? = some before)
    (hafter : next.processes[i]? = some after) : after.dependencies = before.dependencies := by
  have hsame := congrArg (fun entries => (entries[i]?).map Prod.snd) hfixed
  simpa [World.fixed, hbefore, hafter] using hsame

/-- A fork for an entry whose dependencies are RUNNING is gated, and no other event
is a fork. -/
theorem Act.gatedForks {kind : Kind} {world start next : World} (hact : Act kind world next)
    (hkind : (∀ i, kind ≠ .manual i) ∧ ∀ i, kind ≠ .ungated i) (hfixed : world.fixed = start.fixed)
    {events : List Event} (hlog : world.log = events ++ start.log)
    (hgated : GatedForks start.processes events) :
    ∃ more, next.log = more ++ start.log ∧ GatedForks start.processes more := by
  have hother : ∀ event : Event, (∀ i child pid table, event ≠ .forked i child pid table) →
      next.log = event :: world.log →
      ∃ more, next.log = more ++ start.log ∧ GatedForks start.processes more := by
    intro event hevent hnext
    refine ⟨event :: events, by rw [hnext, hlog, List.cons_append], ?_⟩
    intro i child pid table hmem
    rcases List.mem_cons.mp hmem with hsame | hold
    · exact absurd hsame.symm (hevent i child pid table)
    · exact hgated i child pid table hold
  cases hact with
  | fork _ _ i mp pid startTime hentry _ hguard =>
      have hrunning : world.dependenciesRunning mp = true := by
        cases kind with
        | advance => exact hguard.1
        | manual j => exact absurd rfl (hkind.1 j)
        | ungated j => exact absurd rfl (hkind.2 j)
        | _ => exact False.elim hguard
      refine ⟨_, by rw [world.forkSucceeded_log i mp.name pid startTime, hlog, ← List.cons_append],
        ?_⟩
      intro entry child other table hmem before hbefore dep hdep
      rcases List.mem_cons.mp hmem with hsame | hold
      · cases hsame
        rw [← dependencies_of_fixed hfixed hbefore hentry] at hdep
        exact World.lookup_of_dependenciesRunning hrunning hdep
      · exact hgated entry child other table hold before hbefore dep hdep
  | reset =>
      rw [World.resetForStart_log]
      exact ⟨events, hlog, hgated⟩
  | publish | zombieKill | requestStop | forceKill | arm | armStale | giveUp | healthKill =>
      exact hother _ (fun _ _ _ _ hevent => by cases hevent) rfl
  | _ => exact ⟨events, hlog, hgated⟩

theorem step_gated {world : World} {label : Label} (hready : Ready world)
    (htimer : label.request = .timer) (hgated : ¬ UngatedAt world label) :
    GatedStep world label := by
  refine ((step_acts label hready).keeps (fun state => state.fixed = world.fixed ∧
    ∃ events, state.log = events ++ world.log ∧ GatedForks world.processes events) ?_ ?_).2
  · intro kind state next hkind hact hstate
    obtain ⟨hfixed, events, hlog, hforks⟩ := hstate
    refine ⟨hact.fixed_eq.trans hfixed, hact.gatedForks ⟨?_, ?_⟩ hfixed hlog hforks⟩
    · rintro i rfl
      obtain ⟨name, hstart | ⟨hrestart, _⟩, _⟩ := hkind
      · simp [htimer] at hstart
      · simp [htimer] at hrestart
    · rintro i rfl
      exact hgated hkind
  · refine ⟨rfl, [], rfl, ?_⟩
    intro i child pid table hmem
    cases hmem

/-- Every tick after every run forks only processes whose dependencies are RUNNING,
unless `handle_restarts` is about to restart an entry with a dependency that is not. -/
theorem run_gated (config : Config) (nodes : List ProcessNode) (ros steady : Int)
    (labels : List Label) (label : Label) (htimer : label.request = .timer)
    (hgated : ¬ UngatedAt (run step (initial config nodes ros steady) labels) label) :
    GatedStep (run step (initial config nodes ros steady) labels) label :=
  step_gated (run_ready labels (ready_initial config nodes ros steady)) htimer hgated

/-! ## Two processes -/

/-- The entries of the YAML file without and with a dependency. -/
def chain : List ProcessNode :=
  [{ name := "mavros", command := "ros2" },
    { name := "timesync", command := "ros2", dependencies := ["mavros"] }]

/-- Both processes are started one after the other, and the given ones crash. -/
def crashingRun (crashed : List Pid) : List Label :=
  [⟨.timer, [{}, {}, {}, {}, { fork := some 100 }]⟩,
    ⟨.timer, [{}, {}, {}, {}, { fork := some 101 }]⟩, ⟨.timer, []⟩,
    ⟨.timer, [{ exits := crashed.map fun pid => (pid, .exited 1) }]⟩]

/-- A tick after the initial backoff, with two forks. -/
def restartingTick : Label :=
  ⟨.timer, [{ elapsed := 1000000000 }, {}, {}, {}, { fork := some 102 }, {},
    { fork := some 103 }]⟩

set_option maxRecDepth 8000 in
/-- Only timesync has crashed: it is restarted next to a RUNNING mavros. -/
theorem gated_restartingTick :
    GatedStep (run step (initial {} chain 0 0) (crashingRun [101])) restartingTick := by
  apply run_gated {} chain 0 0 (crashingRun [101]) restartingTick rfl
  rintro ⟨_, _, _, hungated⟩
  apply hungated
  have hall : ∀ mp ∈ ((run step (initial {} chain 0 0) (crashingRun [101])).entered
      restartingTick).beforeRestarts.processes,
      ((run step (initial {} chain 0 0) (crashingRun [101])).entered
        restartingTick).beforeRestarts.dependenciesRunning mp = true := by decide
  exact fun mp hmp _ => hall mp hmp

set_option maxRecDepth 8000 in
/-- Both have crashed: timesync is forked while mavros is only STARTING. -/
theorem not_gated_restartingTick :
    ¬ ∀ (config : Config) (nodes : List ProcessNode) (ros steady : Int) (labels : List Label)
      (label : Label), label.request = .timer →
        GatedStep (run step (initial config nodes ros steady) labels) label := by
  intro hall
  obtain ⟨events, hlog, hgated⟩ := hall {} chain 0 0 (crashingRun [100, 101]) restartingTick rfl
  have hforked : .forked 1 3 103 [("mavros", .starting), ("timesync", .restarting)] ∈ events := by
    have hsplit : (step (run step (initial {} chain 0 0) (crashingRun [100, 101]))
        restartingTick).log = (step (run step (initial {} chain 0 0) (crashingRun [100, 101]))
          restartingTick).log.take 3 ++
            (run step (initial {} chain 0 0) (crashingRun [100, 101])).log := by decide
    rw [List.append_cancel_right (hlog.symm.trans hsplit)]
    decide
  obtain ⟨mp, hmp, hdep⟩ : ∃ mp, (run step (initial {} chain 0 0)
      (crashingRun [100, 101])).processes[1]? = some mp ∧ "mavros" ∈ mp.dependencies :=
    ⟨_, rfl, by decide⟩
  have hrunning := hgated 1 3 103 _ hforked mp hmp "mavros" hdep
  revert hrunning
  decide

end AcflyRos.Daemon

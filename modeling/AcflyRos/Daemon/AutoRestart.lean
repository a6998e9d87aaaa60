import AcflyRos.Daemon.NamedStop

/-! # Who is restarted automatically

`auto_restart` is read from the YAML file, cleared when the health check gives up, and set
by start and restart requests for odin1_driver and by a restart of all processes. Those
requests set it to true, and not to what the YAML file says.
-/

namespace AcflyRos.Daemon

open AcflyRos.Transition AcflyRos.Table

/-- The YAML file has `auto_restart: true` for that entry. -/
def AutoRestarted (nodes : List ProcessNode) (i : Nat) : Prop :=
  ∃ node, nodes[i]? = some node ∧ node.autoRestart = true

/-- Only processes that are configured so are restarted automatically, or would be.
`handle_restarts` alone forks for an entry in RESTARTING. -/
structure RespectsConfig (nodes : List ProcessNode) (world : World) : Prop where
  entry : ∀ i mp, world.processes[i]? = some mp → mp.autoRestart = true → AutoRestarted nodes i
  fork : ∀ i child pid table name, .forked i child pid table ∈ world.log →
    table[i]? = some (name, .restarting) → AutoRestarted nodes i

/-- The request sets `auto_restart` of odin1_driver. -/
def ReenablesAt (world : World) (label : Label) : Prop :=
  match label.request with
  | .start name => name = odin ∧ ∀ i mp, world.findProcess odin = some i →
      world.processes[i]? = some mp → mp.state ≠ .running ∧ mp.state ≠ .starting
  | .restart name => name = odin ∨ name = ""
  | _ => False

/-- A request that sets `auto_restart` of odin1_driver finds it set in the YAML file. -/
def KeepsConfigured (nodes : List ProcessNode) (world : World) (label : Label) : Prop :=
  ReenablesAt world label → ∀ i, world.findProcess odin = some i → AutoRestarted nodes i

namespace RespectsConfig

variable {nodes : List ProcessNode} {world next : World} {i : Nat}
  {change : ManagedProcess → ManagedProcess}

theorem of_same (h : RespectsConfig nodes world) (hprocesses : next.processes = world.processes)
    (hlog : next.log = world.log) : RespectsConfig nodes next where
  entry := hprocesses ▸ h.entry
  fork := hlog ▸ h.fork

/-- Another event than a fork is recorded. -/
theorem cons (h : RespectsConfig nodes world) {event : Event}
    (hlog : next.log = event :: world.log)
    (hevent : ∀ i child pid table, event ≠ .forked i child pid table)
    (hprocesses : next.processes = world.processes) : RespectsConfig nodes next where
  entry := hprocesses ▸ h.entry
  fork i child pid table name hmem := by
    rw [hlog] at hmem
    rcases List.mem_cons.mp hmem with hsame | hold
    · exact absurd hsame.symm (hevent i child pid table)
    · exact h.fork i child pid table name hold

/-- One entry changes. -/
theorem modify (h : RespectsConfig nodes world)
    (hprocesses : next.processes = world.processes.modify i change)
    (hchange : ∀ mp, world.processes[i]? = some mp → (change mp).autoRestart = true →
      mp.autoRestart = true ∨ AutoRestarted nodes i) :
    ∀ j mp, next.processes[j]? = some mp → mp.autoRestart = true → AutoRestarted nodes j := by
  intro j after hafter hauto
  rw [hprocesses] at hafter
  rcases getElem?_modify_cases hafter with ⟨rfl, mp, hmp, rfl⟩ | ⟨_, hmp⟩
  · exact (hchange mp hmp hauto).elim (h.entry i mp hmp) id
  · exact h.entry j after hmp hauto

/-- A fork for an entry in RESTARTING finds `auto_restart` set. -/
theorem forkSucceeded (h : RespectsConfig nodes world) {kind : Kind} {mp : ManagedProcess}
    (hentry : world.processes[i]? = some mp) (hguard : world.SpawnGuard mp kind) (pid : Pid)
    (startTime : Time) : RespectsConfig nodes (world.forkSucceeded i mp.name pid startTime) where
  entry := h.modify (world.forkSucceeded_processes i mp.name pid startTime)
    fun _ _ hauto => Or.inl hauto
  fork j child born table name hmem hrestarting := by
    rw [world.forkSucceeded_log i mp.name pid startTime] at hmem
    rcases List.mem_cons.mp hmem with hnew | hold
    · cases hnew
      rw [List.getElem?_map, hentry, Option.map_some, Option.some.injEq] at hrestarting
      have hstate : mp.state = .restarting := congrArg Prod.snd hrestarting
      apply h.entry i mp hentry
      cases kind <;> simp [World.SpawnGuard, hstate] at hguard
      · exact hguard.2
      · exact hguard.2
    · exact h.fork j child born table name hold hrestarting

end RespectsConfig

/-- An action sets `auto_restart` only of odin1_driver, and only by request. -/
theorem Act.respectsConfig {kind : Kind} {world next : World} (hact : Act kind world next)
    {nodes : List ProcessNode}
    (hmanual : ∀ i mp, kind = .manual i ∨ kind = .displace i → world.processes[i]? = some mp →
      mp.name = odin → AutoRestarted nodes i)
    (hall : kind = .manualAll → ∀ i, world.findProcess odin = some i → AutoRestarted nodes i)
    (h : RespectsConfig nodes world) : RespectsConfig nodes next := by
  -- Whatever keeps the flag of the entry it changes.
  have hkept : ∀ {i : Nat} {change : ManagedProcess → ManagedProcess},
      next.processes = world.processes.modify i change →
      (∀ mp, (change mp).autoRestart = mp.autoRestart) →
      ∀ j mp, next.processes[j]? = some mp → mp.autoRestart = true → AutoRestarted nodes j :=
    fun hprocesses hsame => h.modify hprocesses fun mp _ hauto => Or.inl (hsame mp ▸ hauto)
  have hpush : ∀ event : Event, next.log = event :: world.log →
      (∀ i child pid table, event ≠ .forked i child pid table) →
      (∀ j mp, next.processes[j]? = some mp → mp.autoRestart = true → AutoRestarted nodes j) →
      RespectsConfig nodes next := by
    intro event hlog hevent hentry
    refine ⟨hentry, fun i child pid table name hmem => ?_⟩
    rw [hlog] at hmem
    rcases List.mem_cons.mp hmem with hsame | hold
    · exact absurd hsame.symm (hevent i child pid table)
    · exact h.fork i child pid table name hold
  cases hact with
  | fork _ _ i mp pid startTime hentry _ hguard => exact h.forkSucceeded hentry hguard pid startTime
  | forkFail | reapStopped | reapCrashed | markRunning | resetBackoff | countRestart
  | growBackoff => exact ⟨hkept rfl fun _ => rfl, h.fork⟩
  | reset _ i mp hentry =>
      refine ⟨h.modify (world.resetForStart_processes i mp.name) fun same hsame hauto => ?_, ?_⟩
      · cases hentry.symm.trans hsame
        by_cases hodin : mp.name = odin
        · refine Or.inr (hmanual i mp ?_ hentry hodin)
          split
          · exact Or.inr rfl
          · exact Or.inl rfl
        · simp only [hodin, if_false] at hauto
          exact Or.inl hauto
      · rw [World.resetForStart_log]
        exact h.fork
  | resetEntries =>
      refine ⟨fun i after hafter hauto => ?_, h.fork⟩
      simp only [World.resetEntries, World.note, List.getElem?_map,
        Option.map_eq_some_iff] at hafter
      obtain ⟨mp, hmp, rfl⟩ := hafter
      exact h.entry i mp hmp hauto
  | permitRestart _ i hodin =>
      exact ⟨h.modify rfl fun _ _ _ => Or.inr (hall rfl i hodin), h.fork⟩
  | requestStop | forceKill =>
      exact hpush _ rfl (fun _ _ _ _ hevent => by cases hevent) (hkept rfl fun _ => rfl)
  | giveUp =>
      refine hpush _ rfl (fun _ _ _ _ hevent => by cases hevent) (h.modify rfl ?_)
      intro mp _ hauto
      cases hauto
  | publish | zombieKill | arm | armStale | healthKill =>
      exact hpush _ rfl (fun _ _ _ _ hevent => by cases hevent) h.entry
  | _ => exact h.of_same rfl rfl

/-- A start request for a process that runs is answered at once. -/
theorem World.handleStart_running {world : World} {name : String} (hname : name ≠ "") {i : Nat}
    {mp : ManagedProcess} (hfind : world.findProcess name = some i)
    (hentry : world.processes[i]? = some mp) (hstate : mp.state = .running ∨ mp.state = .starting) :
    handleStart name world = world.respond false (name ++ " is already running") := by
  simp only [handleStart, if_neg hname, hfind, onEntry_some hentry, if_pos hstate]

/-- A request resets the entry it names. -/
theorem Allowed.found {world : World} {label : Label} {kind : Kind}
    (hkind : Allowed world label kind) {i : Nat} (hmanual : kind = .manual i ∨ kind = .displace i) :
    ∃ name, world.findProcess name = some i := by
  rcases hmanual with rfl | rfl
  · obtain ⟨name, _, hfind⟩ := hkind
    exact ⟨name, hfind⟩
  · obtain ⟨name, _, _, hfind, _⟩ := hkind
    exact ⟨name, hfind⟩

/-- What a callback may do to odin1_driver, unless it is started while it runs. -/
theorem Allowed.reenables {world : World} {label : Label} {kind : Kind}
    (hkind : Allowed world label kind)
    (hidle : ∀ i mp, label.request = .start odin → world.findProcess odin = some i →
      world.processes[i]? = some mp → mp.state ≠ .running ∧ mp.state ≠ .starting) :
    (∀ i, kind = .manual i ∨ kind = .displace i → world.findProcess odin = some i →
        ReenablesAt world label) ∧
      (kind = .manualAll → ReenablesAt world label) := by
  -- No other name leads to the entry.
  have hname : ∀ {i name}, world.findProcess name = some i → world.findProcess odin = some i →
      name = odin := by
    intro i name hfind hodin
    obtain ⟨mp, hmp, rfl⟩ := World.findProcess_some hfind
    obtain ⟨same, hsame, hodin⟩ := World.findProcess_some hodin
    cases hmp.symm.trans hsame
    exact hodin
  have hstart : ∀ {i name}, label.request = .start name → world.findProcess name = some i →
      world.findProcess odin = some i → ReenablesAt world label := by
    intro i name hrequest hfind hodin
    obtain rfl := hname hfind hodin
    simp only [ReenablesAt, hrequest, true_and]
    exact fun i mp => hidle i mp hrequest
  refine ⟨?_, ?_⟩
  · rintro i (rfl | rfl) hodin
    · obtain ⟨name, hrequest | ⟨hrequest, _⟩, hfind⟩ := hkind
      · exact hstart hrequest hfind hodin
      · obtain rfl := hname hfind hodin
        simp only [ReenablesAt, hrequest, true_or]
    · obtain ⟨name, _, hrequest, hfind, _⟩ := hkind
      exact hstart hrequest hfind hodin
  · rintro rfl
    have hrequest : label.request = .restart "" := hkind
    simp only [ReenablesAt, hrequest, or_true]

theorem step_respectsConfig {nodes : List ProcessNode} {world : World} {label : Label}
    (hready : Ready world) (hkeeps : KeepsConfigured nodes world label)
    (h : RespectsConfig nodes world) : RespectsConfig nodes (step world label) := by
  by_cases hidle : ∀ i mp, label.request = .start odin → world.findProcess odin = some i →
      world.processes[i]? = some mp → mp.state ≠ .running ∧ mp.state ≠ .starting
  · refine ((step_acts label hready).keeps
      (fun state => state.names = world.names ∧ RespectsConfig nodes state) ?_ ⟨rfl, h⟩).2
    rintro kind state next hkind hact ⟨hnames, hstate⟩
    refine ⟨(World.names_of_fixed hact.fixed_eq).trans hnames, hact.respectsConfig ?_ ?_ hstate⟩
    · intro i mp hmanual hentry hodin
      obtain ⟨name, hname⟩ := hkind.found hmanual
      obtain ⟨same, hsame, rfl⟩ :=
        World.findProcess_some ((World.findProcess_congr hnames name).trans hname)
      cases hentry.symm.trans hsame
      rw [hodin] at hname
      exact hkeeps ((Allowed.reenables hkind hidle).1 i hmanual hname) i hname
    · intro hall i hodin
      rw [World.findProcess_congr hnames] at hodin
      exact hkeeps ((Allowed.reenables hkind hidle).2 hall) i hodin
  · simp only [not_forall] at hidle
    obtain ⟨i, mp, hrequest, hfind, hentry, hstate⟩ := hidle
    unfold step
    split
    next =>
      rw [hrequest]
      have hfind' : (world.entered label).findProcess odin = some i := hfind
      have hentry' : (world.entered label).processes[i]? = some mp := hentry
      have hanswer := World.handleStart_running (by decide) hfind' hentry' (by tauto)
      rw [show dispatch (.start odin) { world with script := label.script, response := none } =
        World.handleStart odin (world.entered label) from rfl, hanswer]
      exact h.of_same rfl rfl
    next => exact h

theorem respectsConfig_initial (config : Config) (nodes : List ProcessNode) (ros steady : Int) :
    RespectsConfig nodes (initial config nodes ros steady) where
  entry i mp hmp hauto := by
    simp only [initial, List.getElem?_map, Option.map_eq_some_iff] at hmp
    obtain ⟨node, hnode, rfl⟩ := hmp
    exact ⟨node, hnode, hauto⟩
  fork _ _ _ _ _ hmem := absurd hmem List.not_mem_nil

/-- In every run in which no request sets `auto_restart` of an odin1_driver that is configured
without it, only processes that are configured so are restarted automatically. -/
theorem run_respectsConfig (config : Config) (nodes : List ProcessNode) (ros steady : Int)
    (labels : List Label)
    (hlabels : EveryStep step (KeepsConfigured nodes) (initial config nodes ros steady) labels) :
    RespectsConfig nodes (run step (initial config nodes ros steady) labels) := by
  refine (run_keeps step (fun world => Ready world ∧ RespectsConfig nodes world) ?_
    ⟨ready_initial config nodes ros steady, respectsConfig_initial config nodes ros steady⟩
    hlabels).2
  rintro world label ⟨hready, hworld⟩ hkeeps
  exact ⟨step_ready label hready, step_respectsConfig hready hkeeps hworld⟩

/-- odin1_driver, to be restarted automatically or not. -/
def odinNode (autoRestart : Bool) : ProcessNode :=
  { name := odin, command := "ros2", args := ["launch", "acfly.launch.py"], autoRestart }

/-- odin1_driver crashes twice, with a start request in between, and its backoff expires. -/
def startedByHand : List Label :=
  [forkingTick 100, ⟨.timer, []⟩, ⟨.timer, [{ exits := [(100, .exited 1)] }]⟩,
    ⟨.start odin, [{}, { fork := some 101 }]⟩, ⟨.timer, []⟩,
    ⟨.timer, [{ exits := [(101, .exited 1)] }]⟩,
    ⟨.timer, [{ elapsed := 1000000000 }, {}, {}, {}, {}, { fork := some 102 }]⟩]

set_option maxRecDepth 4000 in
theorem respectsConfig_startedByHand :
    RespectsConfig [odinNode true] (run step (initial {} [odinNode true] 0 0) startedByHand) := by
  apply run_respectsConfig
  have hconfigured : AutoRestarted [odinNode true] 0 := ⟨_, rfl, rfl⟩
  have hfound : ∀ label world, world.names = [odin] →
      KeepsConfigured [odinNode true] world label := by
    intro label world hnames _ i hfind
    rw [World.findProcess_names, hnames] at hfind
    cases hfind
    exact hconfigured
  exact ⟨hfound _ _ rfl, hfound _ _ rfl, hfound _ _ rfl, hfound _ _ rfl, hfound _ _ rfl,
    hfound _ _ rfl, hfound _ _ rfl, trivial⟩

set_option maxRecDepth 4000 in
/-- The start request turns automatic restart on. -/
theorem not_respectsConfig_startedByHand :
    ¬ ∀ (config : Config) (nodes : List ProcessNode) (ros steady : Int) (labels : List Label),
      RespectsConfig nodes (run step (initial config nodes ros steady) labels) := by
  intro hall
  obtain ⟨node, hnode, hauto⟩ := (hall {} [odinNode false] 0 0 startedByHand).fork 0 2 102
    [(odin, .restarting)] odin (by decide) rfl
  cases hnode
  cases hauto

end AcflyRos.Daemon

import AcflyRos.Daemon.Tracking

/-! # Stopping everything

`request_stop` and `force_kill` do nothing for an entry without a child, and
`shutdown_all` counts on them for an entry that waits for its backoff as well. Such
an entry is still in RESTARTING when a stop of all processes returns, and the timer
restarts it. Every other entry ends without a child and stays that way.
-/

namespace AcflyRos.Daemon

open AcflyRos.Transition AcflyRos.Table

/-! ## Where a child can be -/

/-- An entry has a child only in the states that `shutdown_all` stops. -/
def ManagedProcess.Held (mp : ManagedProcess) : Prop :=
  0 < mp.pid → mp.state.live ∨ mp.state = .restarting ∧ mp.stopping = true

/-- Every entry is held. -/
def AllHeld (world : World) : Prop := ∀ mp ∈ world.processes, mp.Held

theorem ManagedProcess.held_of_released {mp : ManagedProcess} (hpid : mp.pid = -1) : mp.Held := by
  intro hlive
  rw [hpid] at hlive
  exact absurd hlive (by decide)

/-- Every action except the reset of a single entry keeps the entries held. -/
theorem Act.allHeld {kind : Kind} {world next : World} (hact : Act kind world next)
    (hkind : ∀ i, kind ≠ .manual i ∧ kind ≠ .displace i) (hheld : AllHeld world) :
    AllHeld next := by
  unfold AllHeld at hheld ⊢
  cases hact with
  | fork _ _ i mp pid startTime =>
      rw [world.forkSucceeded_processes i mp.name pid startTime]
      exact forall_modify hheld fun _ _ _ => Or.inl trivial
  | forkFail _ _ i mp _ hentry hguard =>
      refine forall_modify hheld fun same hsame hlive => ?_
      cases hentry.symm.trans hsame
      rcases hheld mp (List.mem_of_getElem? hentry) hlive with hstate | hstate
      · exact absurd hstate hguard.not_live
      · exact Or.inr ⟨rfl, hstate.2⟩
  | reset _ i =>
      split at hkind
      · exact absurd rfl (hkind i).2
      · exact absurd rfl (hkind i).1
  | resetEntries _ hstate =>
      intro after hafter
      obtain ⟨mp, hmp, rfl⟩ := List.mem_map.mp hafter
      intro hlive
      have hheld := hheld mp hmp hlive
      rcases hstate mp hmp with hstate | hstate | ⟨_, hpid⟩
      · simp [hstate, ProcessState.live] at hheld
      · simp [hstate, ProcessState.live] at hheld
      · exact absurd hlive (Int.not_lt.mpr hpid)
  | requestStop | markRunning => exact forall_modify hheld fun _ _ _ => Or.inl trivial
  | forceKill | reapStopped | reapCrashed =>
      exact forall_modify hheld fun _ _ => ManagedProcess.held_of_released rfl
  | giveUp _ i mp =>
      refine forall_modify hheld fun mp hmp hlive => ?_
      exact (hheld mp (List.mem_of_getElem? hmp) hlive).imp_right fun hstate => ⟨hstate.1, rfl⟩
  | permitRestart | resetBackoff | countRestart | growBackoff =>
      refine forall_modify hheld fun mp hmp hlive => ?_
      exact hheld mp (List.mem_of_getElem? hmp) hlive
  | _ => exact hheld

namespace World

theorem respondStarted_processes (i : Nat) (success failure : String) (world : World) :
    (respondStarted i success failure world).processes = world.processes := by
  unfold respondStarted onEntry
  split
  next => rfl
  next =>
    dsimp only
    split <;> rfl

theorem andThen_processes {world : World} {next : World → World}
    (hnext : (next world).processes = world.processes) :
    (world.andThen next).processes = world.processes := by
  unfold andThen
  split
  · exact hnext
  · rfl

/-- A manual start changes its own entry only, and leaves it forked or crashed. -/
theorem startManually_processes (i : Nat) (name success failure : String) (world : World) :
    ∃ change, Starts change ∧
      (startManually i name success failure world).processes = world.processes.modify i change := by
  obtain ⟨change, _, hstarts, hprocesses⟩ := startProcess_processes i (resetForStart i name world)
  rw [resetForStart_processes, List.modify_modify_eq] at hprocesses
  refine ⟨_, ?_, (andThen_processes (respondStarted_processes _ _ _ _)).trans hprocesses⟩
  intro mp
  exact hstarts _

theorem startManually_allHeld {world : World} (hsound : Sound world) (hheld : AllHeld world)
    {i : Nat} {mp : ManagedProcess} (hentry : world.processes[i]? = some mp)
    (hstate : mp.state ≠ .running ∧ mp.state ≠ .starting) (success failure : String) :
    AllHeld (startManually i mp.name success failure world) := by
  obtain ⟨change, hstarts, hprocesses⟩ := startManually_processes i mp.name success failure world
  unfold AllHeld
  rw [hprocesses]
  refine forall_modify hheld fun same hsame hlive => ?_
  cases hentry.symm.trans hsame
  rcases hstarts mp with hforked | ⟨hcrashed, hpid, hstopping⟩
  · simp [hforked, ProcessState.live]
  · refine Or.inr ⟨hcrashed, ?_⟩
    rw [hpid] at hlive
    rw [hstopping]
    rcases hheld mp (List.mem_of_getElem? hentry) hlive with hmp | hmp
    · rw [ProcessState.live_iff] at hmp
      exact hsound.stoppingFlag mp (List.mem_of_getElem? hentry) (by tauto)
    · exact hmp.2

end World

/-- Actions of a callback that resets no single entry. -/
theorem acts_allHeld {allow : Kind → Prop} {world next : World}
    (hallow : ∀ kind, allow kind → ∀ i, kind ≠ .manual i ∧ kind ≠ .displace i)
    (hacts : Acts Act allow world next) (hheld : AllHeld world) : AllHeld next :=
  hacts.keeps AllHeld (fun kind _ _ hkind hact => hact.allHeld (hallow kind hkind)) hheld

theorem Routine.noReset (kind : Kind) (hkind : Routine kind) (i : Nat) :
    kind ≠ .manual i ∧ kind ≠ .displace i := by
  subst hkind
  exact ⟨Kind.noConfusion, Kind.noConfusion⟩

/-- A label that does not ask for the start of a single entry. -/
def Label.StartsNone (label : Label) : Prop :=
  (∀ name, label.request ≠ .start name) ∧ ∀ name, label.request = .restart name → name = ""

theorem Label.StartsNone.noReset {world : World} {label : Label} (hlabel : label.StartsNone)
    (kind : Kind) (hkind : Allowed world label kind) (i : Nat) :
    kind ≠ .manual i ∧ kind ≠ .displace i := by
  constructor
  · rintro rfl
    obtain ⟨name, hstart | ⟨hrestart, hname⟩, _⟩ := hkind
    · exact hlabel.1 name hstart
    · exact hname (hlabel.2 name hrestart)
  · rintro rfl
    obtain ⟨name, _, hstart, _⟩ := hkind
    exact hlabel.1 name hstart

theorem step_allHeld {world : World} (label : Label) (hready : Ready world)
    (hheld : AllHeld world) : AllHeld (step world label) := by
  by_cases hlabel : label.StartsNone
  · exact acts_allHeld hlabel.noReset (step_acts label hready) hheld
  · unfold step
    split
    next hup =>
      change AllHeld (dispatch label.request (world.entered label))
      have hsound : Sound (world.entered label) := hready.sound.of_same rfl rfl
      have hidle : (world.entered label).deadline = none := (hready.idle hup).1
      have hheld' : AllHeld (world.entered label) := hheld
      cases hrequest : label.request with
      | start name =>
          change AllHeld (World.handleStart name (world.entered label))
          rcases World.handleStart_cases name (world.entered label) with
            hacts | ⟨i, mp, success, failure, _, hentry, rfl, hstate, hstart⟩
          · exact acts_allHeld Routine.noReset hacts hheld'
          · rw [hstart]
            exact World.startManually_allHeld hsound hheld' hentry hstate success failure
      | restart name =>
          have hname : name ≠ "" := by
            intro hname
            apply hlabel
            simp [Label.StartsNone, hrequest, hname]
          change AllHeld (World.handleRestart name (world.entered label))
          rcases World.handleRestart_cases hsound hidle hname with
            hacts | ⟨waited, i, mp, success, failure, hacts, _, hentry, rfl, hstate, _, hstart⟩
          · exact acts_allHeld Routine.noReset hacts hheld'
          · rw [hstart]
            exact World.startManually_allHeld (acts_sound hacts hsound)
              (acts_allHeld Routine.noReset hacts hheld') hentry hstate success failure
      | _ => exact absurd (by simp [Label.StartsNone, hrequest]) hlabel
    next => exact hheld

theorem allHeld_initial (config : Config) (nodes : List ProcessNode) (ros steady : Int) :
    AllHeld (initial config nodes ros steady) :=
  fun _ hmp => ManagedProcess.held_of_released (initial_entries hmp).1

/-- In every reachable state, whatever requests came before. -/
theorem run_allHeld {world : World} (labels : List Label) (hready : Ready world)
    (hheld : AllHeld world) : AllHeld (run step world labels) := by
  refine (run_invariant step (fun world => Ready world ∧ AllHeld world) ?_ labels
    ⟨hready, hheld⟩).2
  intro world label hworld
  exact ⟨step_ready label hworld.1, step_allHeld label hworld.1 hworld.2⟩

/-! ## The request -/

/-- The state after a stop of all processes. -/
def stopAll (world : World) (script : List Beat) : World := step world ⟨.stop "", script⟩

/-- How often an entry has been forked. -/
def World.forksOf (world : World) (i : Nat) : Nat :=
  world.log.countP fun event =>
    match event with
    | .forked entry _ _ _ => entry == i
    | _ => false

/-- A label that does not ask for any start. -/
def Label.NoStart (label : Label) : Prop :=
  ∀ name, label.request ≠ .start name ∧ label.request ≠ .restart name

/-- A stop of all processes is complete, and stays so until a start is requested. -/
structure StopsAll (world : World) (script : List Beat) : Prop where
  dead : ∀ child ∈ (stopAll world script).children,
    (∃ mp ∈ world.processes, mp.pid = child.pid) → child.killed = true
  idle : ∀ mp ∈ (stopAll world script).processes,
    (mp.state = .stopped ∨ mp.state = .pending) ∧ mp.pid = -1
  sticky : ∀ labels : List Label, (∀ label ∈ labels, label.NoStart) →
    ∀ (i : Nat) (mp : ManagedProcess), world.processes[i]? = some mp →
      mp.state = .starting ∨ mp.state = .running ∨ mp.state = .stopping ∨
        mp.state = .restarting →
      (run step (stopAll world script) labels).forksOf i = world.forksOf i

/-- The phases of the request, up to its answer. -/
theorem stopAll_phases {world : World} {script : List Beat} (hready : Ready world)
    (hreturns : (stopAll world script).mode = .up) :
    ∃ asked, Acts Act Winding (world.entered ⟨.stop "", script⟩) asked ∧
      (world.entered ⟨.stop "", script⟩).AskedSince asked ∧
      (∀ mp ∈ asked.processes, mp.Asked) ∧ Acts Act Winding asked (stopAll world script) ∧
      ∀ mp ∈ (stopAll world script).processes, mp.Settled := by
  unfold stopAll step at hreturns ⊢
  split at hreturns
  next hup =>
    rw [if_pos hup]
    have hsound : Sound (world.entered ⟨.stop "", script⟩) := hready.sound.of_same rfl rfl
    obtain ⟨hidle, hfirst⟩ := hready.idle hup
    obtain ⟨asked, hask, hsince, hall, hstop, hlast⟩ :=
      World.shutdownAll_acts hsound hup hidle hfirst
    change (World.handleStop "" (world.entered ⟨.stop "", script⟩)).mode = .up at hreturns
    change ∃ asked, _ ∧ _ ∧ _ ∧
      Acts Act Winding asked (World.handleStop "" (world.entered ⟨.stop "", script⟩)) ∧
      ∀ mp ∈ (World.handleStop "" (world.entered ⟨.stop "", script⟩)).processes, mp.Settled
    unfold World.handleStop at hreturns ⊢
    rw [if_pos rfl] at hreturns ⊢
    obtain ⟨hup', hnext⟩ := World.andThen_up hreturns
    rw [hnext]
    refine ⟨asked, hask, hsince, hall, ?_, (hlast hup').2⟩
    exact (hstop.tail (Or.inr rfl) (.shuttingDown _ false)).trans
      (World.respond_acts (Or.inl rfl) _ _ _)
  next hdown => exact absurd hreturns hdown

/-- While the request is served, a child is owned as long as it may live. -/
theorem acts_owned {within : Pid → Prop} {world next : World} (hacts : Acts Act Winding world next)
    (hsound : Sound world) (howned : Owned within world) : Owned within next := by
  refine (hacts.keeps (fun world => Sound world ∧ Owned within world) ?_ ⟨hsound, howned⟩).2
  intro kind state next hkind hact hstate
  refine ⟨hact.sound hstate.1, hact.owned hstate.1 (fun mp _ hguard => ?_) hstate.2⟩
  rcases hkind with rfl | rfl <;> exact False.elim hguard

/-- What the request makes of an entry that is not waiting for its backoff. -/
def ManagedProcess.WindingDown (mp : ManagedProcess) : Prop :=
  mp.state ≠ .restarting ∧ (0 < mp.pid → mp.state = .stopping ∧ mp.stopping = true)

theorem Winds.keeps_windingDown {before after : ManagedProcess} (hwinds : Winds before after)
    (hbefore : before.WindingDown) : after.WindingDown := by
  unfold ManagedProcess.WindingDown at hbefore ⊢
  cases hwinds with
  | same hstate hpid hstopping => rwa [hstate, hpid, hstopping]
  | asked hstate _ hstopping => simp [hstate, hstopping]
  | released hstate hpid hlive =>
      rcases hstate with hstate | ⟨_, hstopping⟩
      · simp [hstate, hpid]
      · exact absurd (hbefore.2 hlive).2 (by simp [hstopping])

/-- What the request makes of an entry that was asked to stop. -/
def ManagedProcess.GoingDown (mp : ManagedProcess) : Prop :=
  mp.state = .stopping ∧ mp.stopping = true ∨ mp.state = .stopped ∧ mp.pid ≤ 0

theorem Winds.keeps_goingDown {before after : ManagedProcess} (hwinds : Winds before after)
    (hbefore : before.GoingDown) : after.GoingDown := by
  unfold ManagedProcess.GoingDown at hbefore ⊢
  cases hwinds with
  | same hstate hpid hstopping => rwa [hstate, hpid, hstopping]
  | asked hstate _ hstopping => exact Or.inl ⟨hstate, hstopping⟩
  | released hstate hpid hlive =>
      rcases hbefore with ⟨_, hflag⟩ | ⟨_, hnone⟩
      · rcases hstate with hstate | ⟨_, hstopping⟩
        · simp [hstate, hpid]
        · exact absurd hflag (by simp [hstopping])
      · exact absurd hlive (Int.not_lt.mpr hnone)

/-- An entry that is down when the request returns has no child. -/
theorem ManagedProcess.WindingDown.idle {mp : ManagedProcess} (hwinding : mp.WindingDown)
    (hsettled : mp.Settled) (hsign : mp.pid = -1 ∨ 0 < mp.pid) :
    (mp.state = .stopped ∨ mp.state = .pending) ∧ mp.pid = -1 := by
  have hstate : mp.state = .stopped ∨ mp.state = .pending := by
    rcases hsettled with hstate | hstate | ⟨hstate, _⟩
    · exact Or.inl hstate
    · exact Or.inr hstate
    · exact absurd hstate hwinding.1
  refine ⟨hstate, hsign.resolve_right fun hlive => ?_⟩
  have hstopping := (hwinding.2 hlive).1
  rcases hstate with hstate | hstate <;> simp [hstate] at hstopping

theorem ManagedProcess.GoingDown.stopped {mp : ManagedProcess} (hgoing : mp.GoingDown)
    (hdown : mp.state = .stopped ∨ mp.state = .pending) : mp.state = .stopped := by
  rcases hgoing with ⟨hstopping, _⟩ | ⟨hstopped, _⟩
  · rcases hdown with hstate | hstate <;> simp [hstopping] at hstate
  · exact hstopped

/-- An entry without a child is left in its backoff. -/
theorem Winds.keeps_backoff {before after : ManagedProcess} (hwinds : Winds before after)
    (hbefore : before.state = .restarting ∧ before.pid ≤ 0) :
    after.state = .restarting ∧ after.pid ≤ 0 := by
  cases hwinds with
  | same hstate hpid => rwa [hstate, hpid]
  | asked _ _ _ hlive | released _ _ hlive => exact absurd hlive (Int.not_lt.mpr hbefore.2)

theorem World.forksOf_cons {world next : World} {event : Event} {i : Nat}
    (hlog : next.log = event :: world.log)
    (hother : ∀ child pid table, event ≠ .forked i child pid table) :
    next.forksOf i = world.forksOf i := by
  rw [forksOf, hlog, List.countP_cons_of_neg]
  · rfl
  · cases event with
    | forked entry child pid table =>
        intro hentry
        exact hother child pid table (by rw [eq_of_beq hentry])
    | _ => simp

/-- What follows for the other entries from a change to one entry. -/
theorem stopped_of_modify {world next : World} {i j : Nat}
    {change : ManagedProcess → ManagedProcess}
    (hprocesses : next.processes = world.processes.modify j change)
    (hstopped : ∀ mp, world.processes[i]? = some mp → mp.state = .stopped ∧ mp.pid = -1)
    (hchange : ∀ mp, world.processes[j]? = some mp → mp.state = .stopped → mp.pid = -1 →
      (change mp).state = .stopped ∧ (change mp).pid = -1) :
    ∀ mp, next.processes[i]? = some mp → mp.state = .stopped ∧ mp.pid = -1 := by
  intro after hafter
  rw [hprocesses] at hafter
  rcases getElem?_modify_cases hafter with ⟨rfl, mp, hmp, rfl⟩ | ⟨_, hmp⟩
  · exact hchange mp hmp (hstopped mp hmp).1 (hstopped mp hmp).2
  · exact hstopped after hmp

/-- A stopped entry is neither changed nor forked before a start is requested. -/
theorem Act.staysStopped {kind : Kind} {world next : World} (hact : Act kind world next)
    {i : Nat} (hkind : kind ≠ .manual i ∧ kind ≠ .displace i) (hall : kind ≠ .manualAll)
    (hsound : Sound world)
    (hstopped : ∀ mp, world.processes[i]? = some mp → mp.state = .stopped ∧ mp.pid = -1) :
    (∀ mp, next.processes[i]? = some mp → mp.state = .stopped ∧ mp.pid = -1) ∧
      next.forksOf i = world.forksOf i := by
  -- An entry with a child, or in another state, is another entry.
  have hbusy : ∀ {j : Nat} {mp same : ManagedProcess}, world.processes[j]? = some mp →
      world.processes[j]? = some same → 0 < mp.pid → same.pid = -1 → ∀ {P : Prop}, P := by
    intro j mp same hmp hsame hlive hidle P
    cases hmp.symm.trans hsame
    rw [hidle] at hlive
    exact absurd hlive (by decide)
  have hreaped : ∀ {mp : ManagedProcess} {child : Child}, mp.pid = child.pid →
      child ∈ world.children → 0 < mp.pid :=
    fun hpid hchild => hpid ▸ hsound.childPos _ (List.mem_map_of_mem hchild)
  cases hact with
  | fork _ _ j mp pid startTime hentry _ hguard =>
      have hdown : mp.state ≠ .stopped := by
        intro hstate
        cases kind <;> simp [World.SpawnGuard, hstate] at hguard
      refine ⟨stopped_of_modify (world.forkSucceeded_processes j mp.name pid startTime) hstopped ?_,
        World.forksOf_cons (world.forkSucceeded_log j mp.name pid startTime) ?_⟩
      · intro same hsame hstate
        cases hentry.symm.trans hsame
        exact absurd hstate hdown
      · rintro child pid table ⟨rfl, _⟩
        exact hdown (hstopped mp hentry).1
  | forkFail _ _ j mp _ hentry hguard =>
      refine ⟨stopped_of_modify rfl hstopped fun same hsame hstate => ?_, rfl⟩
      cases hentry.symm.trans hsame
      cases kind <;> simp [World.SpawnGuard, hstate] at hguard
  | reset _ j mp =>
      have hother : j ≠ i := by
        rintro rfl
        split at hkind
        · exact hkind.2 rfl
        · exact hkind.1 rfl
      refine ⟨fun after hafter => ?_, by simp [World.forksOf]⟩
      rw [world.resetForStart_processes j mp.name, List.getElem?_modify_ne _ _ hother] at hafter
      exact hstopped after hafter
  | resetEntries | permitRestart => exact absurd rfl hall
  | requestStop _ j mp hentry hpid =>
      refine ⟨stopped_of_modify rfl hstopped fun same hsame _ hidle => ?_,
        World.forksOf_cons rfl fun _ _ _ hevent => by cases hevent⟩
      exact hbusy hentry hsame hpid hidle
  | forceKill _ j mp hentry hpid =>
      exact ⟨stopped_of_modify rfl hstopped fun _ _ _ _ => ⟨rfl, rfl⟩,
        World.forksOf_cons rfl fun _ _ _ hevent => by cases hevent⟩
  | reapStopped _ j mp child _ hentry hpid hchild =>
      exact ⟨stopped_of_modify rfl hstopped fun _ _ _ _ => ⟨rfl, rfl⟩, rfl⟩
  | reapCrashed _ j mp child _ hentry hpid hchild =>
      refine ⟨stopped_of_modify rfl hstopped fun same hsame _ hidle => ?_, rfl⟩
      exact hbusy hentry hsame (hreaped hpid hchild) hidle
  | markRunning _ j mp hentry hstarting =>
      refine ⟨stopped_of_modify rfl hstopped fun same hsame hstate => ?_, rfl⟩
      cases hentry.symm.trans hsame
      rw [hstarting] at hstate
      cases hstate
  | resetBackoff | countRestart | growBackoff =>
      exact ⟨stopped_of_modify rfl hstopped fun _ _ hstate hpid => ⟨hstate, hpid⟩, rfl⟩
  | giveUp =>
      exact ⟨stopped_of_modify rfl hstopped fun _ _ hstate hpid => ⟨hstate, hpid⟩,
        World.forksOf_cons rfl fun _ _ _ hevent => by cases hevent⟩
  | publish | zombieKill | arm | armStale | healthKill =>
      exact ⟨hstopped, World.forksOf_cons rfl fun _ _ _ hevent => by cases hevent⟩
  | _ => exact ⟨hstopped, rfl⟩

/-- In a run without start requests, a stopped entry is never forked. -/
theorem run_staysStopped {world : World} {labels : List Label} (hready : Ready world)
    (hlabels : ∀ label ∈ labels, label.NoStart) {i : Nat}
    (hstopped : ∀ mp, world.processes[i]? = some mp → mp.state = .stopped ∧ mp.pid = -1) :
    (run step world labels).forksOf i = world.forksOf i := by
  refine (run_keeps_acts (fun state =>
    (∀ mp, state.processes[i]? = some mp → mp.state = .stopped ∧ mp.pid = -1) ∧
      state.forksOf i = world.forksOf i) ?_ hready ⟨hstopped, rfl⟩
    (everyStep_of_forall step hlabels world)).2
  intro state label kind before after _ hlabel hallowed hsound hbefore hact
  have hnone : label.StartsNone :=
    ⟨fun name => (hlabel name).1, fun name hrestart => absurd hrestart (hlabel name).2⟩
  have hall : kind ≠ .manualAll := by
    rintro rfl
    exact (hlabel "").2 hallowed
  obtain ⟨hstate, hforks⟩ := hact.staysStopped (hnone.noReset kind hallowed i) hall hsound hbefore.1
  exact ⟨hstate, hforks.trans hbefore.2⟩

theorem acts_forksOf {world next : World} (hacts : Acts Act Winding world next) (i : Nat) :
    next.forksOf i = world.forksOf i := by
  refine hacts.frame (fun world => world.forksOf i) fun kind state next hkind hact => ?_
  cases hact with
  | fork _ _ _ _ _ _ _ _ hguard | forkFail _ _ _ _ _ _ hguard =>
      rcases hkind with rfl | rfl <;> exact False.elim hguard
  | reset => simp [World.forksOf]
  | requestStop | forceKill | publish | zombieKill | arm | armStale | healthKill | giveUp =>
      exact World.forksOf_cons rfl fun _ _ _ hevent => by cases hevent
  | _ => rfl

/-- Once everything has been asked to stop, a child is held in STOPPING only. -/
theorem windingDown_of_asked {world asked : World} (hsound : Sound asked) (hheld : AllHeld asked)
    (hsince : world.AskedSince asked) (hall : ∀ mp ∈ asked.processes, mp.Asked)
    (hnone : ∀ mp ∈ world.processes, mp.state = .restarting → 0 < mp.pid) :
    ∀ mp ∈ asked.processes, mp.WindingDown := by
  intro mp hmp
  obtain ⟨i, hi⟩ := List.mem_iff_getElem?.mp hmp
  obtain ⟨before, hbefore, hpid, hstate⟩ := hsince i mp hi
  have hasked := hall mp hmp
  unfold ManagedProcess.Asked at hasked
  constructor
  · intro hrestarting
    have hlive : 0 < mp.pid := by
      rw [hpid]
      apply hnone before (List.mem_of_getElem? hbefore)
      rcases hstate with hsame | hstopping
      · rw [← hsame, hrestarting]
      · simp [hrestarting] at hstopping
    exact Int.not_le.mpr hlive (hasked (Or.inr (Or.inr hrestarting)))
  · intro hlive
    have hnot := mt hasked (Int.not_le.mpr hlive)
    have hstopping : mp.state = .stopping := by
      rcases hheld mp hmp hlive with hstate | ⟨hstate, _⟩
      · rw [ProcessState.live_iff] at hstate
        tauto
      · tauto
    exact ⟨hstopping, hsound.stoppingFlag mp hmp hstopping⟩

/-- Whatever had or awaited a child is in STOPPING once it has been asked. -/
theorem goingDown_of_asked {world asked : World} (hsound : Sound asked)
    (hsince : world.AskedSince asked) (hall : ∀ mp ∈ asked.processes, mp.Asked)
    (hwinding : ∀ mp ∈ asked.processes, mp.WindingDown) {i : Nat} {mp before : ManagedProcess}
    (hmp : asked.processes[i]? = some mp) (hbefore : world.processes[i]? = some before)
    (hactive : before.state = .starting ∨ before.state = .running ∨ before.state = .stopping ∨
      before.state = .restarting) : mp.GoingDown := by
  have hmem := List.mem_of_getElem? hmp
  have hdown := hsound.not_rising hmem (hall mp hmem)
  have hnot := (hwinding mp hmem).1
  obtain ⟨same, hsame, _, hstate⟩ := hsince i mp hmp
  cases hbefore.symm.trans hsame
  have hstopping : mp.state = .stopping := by
    unfold ProcessState.rising at hdown
    rcases hstate with hstate | hstopping
    · rw [← hstate] at hactive
      tauto
    · exact hstopping
  exact Or.inl ⟨hstopping, hsound.stoppingFlag mp hmem hstopping⟩

theorem stopsAll_of_noBackoff {world : World} {script : List Beat} (hready : Ready world)
    (hheld : AllHeld world) (hreturns : (stopAll world script).mode = .up)
    (hnone : ∀ mp ∈ world.processes, mp.state = .restarting → 0 < mp.pid) :
    StopsAll world script := by
  obtain ⟨asked, hask, hsince, hall, hstop, hsettled⟩ := stopAll_phases hready hreturns
  have hsound : Sound (world.entered ⟨.stop "", script⟩) := hready.sound.of_same rfl rfl
  have hsound' := acts_sound hask hsound
  have hnoReset : ∀ kind, Winding kind → ∀ i, kind ≠ .manual i ∧ kind ≠ .displace i := by
    rintro kind (rfl | rfl) i <;> exact ⟨Kind.noConfusion, Kind.noConfusion⟩
  have hheld' : AllHeld asked := acts_allHeld hnoReset hask hheld
  have hasked := windingDown_of_asked hsound' hheld' hsince hall hnone
  have hlast := acts_sound hstop hsound'
  have hidle : ∀ mp ∈ (stopAll world script).processes,
      (mp.state = .stopped ∨ mp.state = .pending) ∧ mp.pid = -1 := by
    intro mp hmp
    obtain ⟨i, hi⟩ := List.mem_iff_getElem?.mp hmp
    have hwinding : mp.WindingDown := acts_winds (fun _ hkind => hkind) _
      (fun _ _ => Winds.keeps_windingDown) hstop hsound'
      (fun mp hmp => hasked mp (List.mem_of_getElem? hmp)) mp hi
    exact hwinding.idle (hsettled mp hmp) (hlast.pidSign mp hmp)
  refine ⟨?_, hidle, ?_⟩
  · intro child hchild hmanaged
    -- An unkilled child would still have its entry, but no entry has a pid.
    have howned : Owned (fun pid => ∃ mp ∈ world.processes, mp.pid = pid)
        (stopAll world script) :=
      acts_owned (hask.trans hstop) hsound fun _ _ _ hwithin => hwithin
    cases hkilled : child.killed with
    | true => rfl
    | false =>
        obtain ⟨mp, hmp, hpid⟩ := howned child hchild hkilled hmanaged
        have hlive := hlast.childPos _ (List.mem_map_of_mem hchild)
        rw [← hpid, (hidle mp hmp).2] at hlive
        exact absurd hlive (by decide)
  · intro labels hlabels i before hbefore hactive
    have hstopped : ∀ mp, (stopAll world script).processes[i]? = some mp →
        mp.state = .stopped ∧ mp.pid = -1 := by
      intro mp hmp
      have hgoing : mp.GoingDown := acts_winds (fun _ hkind => hkind) _
        (fun _ _ => Winds.keeps_goingDown) hstop hsound'
        (fun mp hmp => goingDown_of_asked hsound' hsince hall hasked hmp hbefore hactive) mp hmp
      obtain ⟨hstate, hpid⟩ := hidle mp (List.mem_of_getElem? hmp)
      exact ⟨hgoing.stopped hstate, hpid⟩
    have hready' : Ready (stopAll world script) := step_ready _ hready
    exact (run_staysStopped hready' hlabels hstopped).trans (acts_forksOf (hask.trans hstop) i)

theorem noBackoff_of_stopsAll {world : World} {script : List Beat} (hready : Ready world)
    (hreturns : (stopAll world script).mode = .up) (hstops : StopsAll world script) :
    ∀ mp ∈ world.processes, mp.state = .restarting → 0 < mp.pid := by
  intro mp hmp hrestarting
  by_contra hpid
  obtain ⟨asked, hask, _, _, hstop, _⟩ := stopAll_phases hready hreturns
  have hacts := hask.trans hstop
  obtain ⟨i, hi⟩ := List.mem_iff_getElem?.mp hmp
  have hnames : (stopAll world script).names = (world.entered ⟨.stop "", script⟩).names :=
    acts_names hacts
  have hlength : (stopAll world script).processes.length = world.processes.length :=
    World.length_of_names hnames
  obtain ⟨hlt, _⟩ := List.getElem?_eq_some_iff.mp hi
  obtain ⟨after, hafter⟩ : ∃ after, (stopAll world script).processes[i]? = some after :=
    ⟨_, List.getElem?_eq_getElem (by rwa [hlength])⟩
  -- No action of the request touches an entry in its backoff.
  have hbackoff := acts_winds (fun _ hkind => hkind)
    (fun mp => mp.state = .restarting ∧ mp.pid ≤ 0) (fun _ _ => Winds.keeps_backoff) hacts
    (hready.sound.of_same rfl rfl) (i := i) (fun same hsame => by
      cases hi.symm.trans hsame
      exact ⟨hrestarting, Int.not_lt.mp hpid⟩) _ hafter
  rcases (hstops.idle _ (List.mem_of_getElem? hafter)).1 with hstate | hstate <;>
    simp [hbackoff.1] at hstate

/-- In every reachable state, a stop of all processes that returns is complete and
sticky exactly if no entry is waiting for its backoff. -/
theorem run_stopsAll_iff (config : Config) (nodes : List ProcessNode) (ros steady : Int)
    (labels : List Label) (script : List Beat)
    (hreturns : (stopAll (run step (initial config nodes ros steady) labels) script).mode = .up) :
    StopsAll (run step (initial config nodes ros steady) labels) script ↔
      ∀ mp ∈ (run step (initial config nodes ros steady) labels).processes,
        mp.state = .restarting → 0 < mp.pid :=
  have hready := run_ready labels (ready_initial config nodes ros steady)
  have hheld := run_allHeld labels (ready_initial config nodes ros steady)
    (allHeld_initial config nodes ros steady)
  ⟨noBackoff_of_stopsAll hready hreturns, stopsAll_of_noBackoff hready hheld hreturns⟩

/-- A stop request that lasts eleven seconds. -/
def slowStop : List Beat := [{}, { elapsed := 11000000000 }]

/-- One running process. -/
def runningRun : List Label := [forkingTick 100, ⟨.timer, []⟩]

set_option maxRecDepth 4000 in
/-- The running child ignores SIGINT and is killed. -/
theorem stopsAll_runningRun :
    StopsAll (run step (initial {} [mavros] 0 0) runningRun) slowStop := by
  apply (run_stopsAll_iff {} [mavros] 0 0 runningRun slowStop (by decide)).mpr
  decide

/-- The running process has crashed and waits for its backoff. -/
def crashedRun : List Label := runningRun ++ [⟨.timer, [{ exits := [(100, .exited 1)] }]⟩]

set_option maxRecDepth 4000 in
/-- The stop request returns, and the next tick forks the process again. -/
theorem not_stopsAll_crashedRun :
    ¬ ∀ (config : Config) (nodes : List ProcessNode) (ros steady : Int) (labels : List Label)
      (script : List Beat),
      (stopAll (run step (initial config nodes ros steady) labels) script).mode = .up →
        StopsAll (run step (initial config nodes ros steady) labels) script := by
  intro hall
  have hstops := hall {} [mavros] 0 0 crashedRun slowStop (by decide)
  obtain ⟨mp, hmp, hstate⟩ : ∃ mp, (run step (initial {} [mavros] 0 0) crashedRun).processes[0]? =
      some mp ∧ mp.state = .restarting := ⟨_, rfl, by decide⟩
  have hsticky := hstops.sticky [forkingTick 101] (by simp [Label.NoStart, forkingTick]) 0 mp hmp
    (Or.inr (Or.inr (Or.inr hstate)))
  revert hsticky
  decide

end AcflyRos.Daemon

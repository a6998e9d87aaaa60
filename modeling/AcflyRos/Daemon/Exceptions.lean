import AcflyRos.Daemon.Clocked
import AcflyRos.Daemon.ShutDown

/-! # When an exception ends the node

Nothing catches the exception that the difference of times of two clocks throws. Every stop request
is timed by the node clock, and only the stop flag that the health check sets when it gives up on
odin1_driver goes with whatever time of a request there was before. A callback that comes across
such a child before it has been reaped ends the node, and leaves all its children alone.
-/

namespace AcflyRos.Daemon

open AcflyRos.Transition AcflyRos.Table AcflyRos.Polling

/-! ## Stop requests -/

/-- The entry has a child that counts as stopping, but no request is timed by the node clock. -/
def ManagedProcess.Unasked (mp : ManagedProcess) : Prop :=
  mp.stopping = true ∧ 0 < mp.pid ∧ mp.stopRequestTime.clockType ≠ .rosTime

instance (mp : ManagedProcess) : Decidable mp.Unasked := inferInstanceAs (Decidable (_ ∧ _ ∧ _))

namespace World

def Unasked (world : World) : Prop := ∃ mp ∈ world.processes, mp.Unasked

instance (world : World) : Decidable world.Unasked :=
  inferInstanceAs (Decidable (∃ mp ∈ world.processes, mp.Unasked))

/-- Such a child is one that the health check has given up on. -/
theorem Unasked.givenUp {world : World} (htimes : world.TimesStops) (h : world.Unasked) :
    ∃ mp ∈ world.processes, mp.Unasked ∧ mp.state = .running ∧
      ∃ serial, world.serialOf mp.pid = some serial ∧
        .healthKilled mp.pid (some serial) true ∈ world.log := by
  obtain ⟨mp, hmp, hunasked⟩ := h
  obtain ⟨i, hi⟩ := List.mem_iff_getElem?.mp hmp
  exact ⟨mp, hmp, hunasked, (htimes i mp hi hunasked.1).resolve_left hunasked.2.2⟩

theorem TimesStops.timed_of_not_unasked {world : World} (h : world.TimesStops)
    (hsound : Sound world) (hnone : ¬ world.Unasked) : world.Timed := by
  intro mp hmp hstopping
  obtain ⟨i, hi⟩ := List.mem_iff_getElem?.mp hmp
  rcases h i mp hi hstopping with htime | ⟨hrunning, _⟩
  · exact htime
  · by_contra htime
    exact hnone ⟨mp, hmp, hstopping, hsound.pidLive mp hmp (hrunning ▸ trivial), htime⟩

theorem each_of_down {body : Nat → World → World} {world : World} (hdown : world.mode ≠ .up)
    (order : List Nat) : world.each order body = world := by
  unfold each
  induction order with
  | nil => rfl
  | cons i rest ih => rwa [List.foldl_cons, andThen_of_down hdown]

/-- A loop that keeps what one of its iterations throws on ends in the exception. -/
theorem each_aborts {body : Nat → World → World} (property : World → Prop) {i : Nat}
    (hbody : ∀ j later, later.mode = .up → property later →
      (body j later).mode = .aborted ∨
        j ≠ i ∧ (body j later).mode = .up ∧ property (body j later))
    (order : List Nat) (hmem : i ∈ order) {world : World} (hup : world.mode = .up)
    (hworld : property world) : (world.each order body).mode = .aborted := by
  induction order generalizing world with
  | nil => cases hmem
  | cons j rest ih =>
      have hnext : world.each (j :: rest) body = (body j world).each rest body := by
        show (world.andThen (body j)).each rest body = _
        rw [andThen, if_pos hup]
      rw [hnext]
      rcases hbody j world hup hworld with haborted | ⟨hne, hup', hkept⟩
      · rwa [each_of_down (by simp [haborted])]
      · exact ih ((List.mem_cons.mp hmem).resolve_left (Ne.symm hne)) hup' hkept

/-- `check_stop_timeouts` throws on a child that has not been asked to stop. -/
theorem checkStopTimeouts_aborts {world : World} (hup : world.mode = .up) (h : world.Unasked) :
    (checkStopTimeouts world).mode = .aborted := by
  obtain ⟨mp, hmp, hunasked⟩ := h
  obtain ⟨i, hi⟩ := List.mem_iff_getElem?.mp hmp
  obtain ⟨hlt, _⟩ := List.getElem?_eq_some_iff.mp hi
  refine each_aborts (fun later => later.processes[i]? = some mp) (fun j later hup hkept => ?_) _
    (List.mem_range.mpr hlt) hup hi
  by_cases hij : j = i
  · subst hij
    have hthrows : world.interact.clock.sub? mp.stopRequestTime = none :=
      if_neg (Ne.symm hunasked.2.2)
    rw [onEntry_some hkept, if_pos ⟨hunasked.1, hunasked.2.1⟩, hthrows]
    exact Or.inl rfl
  · -- Another entry may be thrown on first, or force-killed.
    cases hentry : later.processes[j]? with
    | none =>
        rw [onEntry_none hentry]
        exact Or.inr ⟨hij, hup, hkept⟩
    | some other =>
        rw [onEntry_some hentry]
        split
        next =>
          split
          next => exact Or.inl rfl
          next =>
            split
            next =>
              refine Or.inr ⟨hij, ?_⟩
              rw [forceKill, onEntry_some hentry]
              split
              · exact ⟨hup, hkept⟩
              · exact ⟨hup, (List.getElem?_modify_ne _ _ hij).trans hkept⟩
            next => exact Or.inr ⟨hij, hup, hkept⟩
        next => exact Or.inr ⟨hij, hup, hkept⟩

/-! ## Each callback -/

theorem onTimer_up {world : World} (hsound : Sound world) (htimes : world.TimesStops)
    (h : Serene world) (hsignal : world.signalReceived = false)
    (hnone : ¬ (reapChildren world).Unasked) : (onTimer world).mode = .up := by
  have hroutine : Routine .routine := rfl
  have hreaping := reapChildren_acts hroutine world
  have hreaped : (reapChildren world).mode = .up := PollKeeps.up.reapLoop _ h.up
  have htimed : (reapChildren world).Timed :=
    (acts_timesStops hreaping hsound htimes).timed_of_not_unasked (acts_sound hreaping hsound) hnone
  have hchecked : Serene ((reapChildren world).andThen checkStopTimeouts) := by
    rw [andThen, if_pos hreaped]
    exact ⟨(PollKeeps.timed.checkStopTimeouts hreaped htimed htimed).1,
      acts_clocked (hreaping.trans (checkStopTimeouts_acts hroutine _)) h.clocked⟩
  have hrestarted := andThen_serene (andThen_serene (andThen_serene hchecked checkStarted_serene)
    checkOdinHealth_serene) handleRestarts_serene
  have hpending := handlePending_serene hrestarted
  unfold onTimer
  rw [if_neg (by simp [hsignal])]
  exact andThen_mode_up hrestarted.up (andThen_mode_up hpending.up (publishStatus_up hpending))

theorem onTimer_aborts {world : World} (hup : world.mode = .up)
    (hsignal : world.signalReceived = false) (h : (reapChildren world).Unasked) :
    (onTimer world).mode = .aborted := by
  have hreaped : (reapChildren world).mode = .up := PollKeeps.up.reapLoop _ hup
  have hchecked : ((reapChildren world).andThen checkStopTimeouts).mode = .aborted := by
    rw [andThen, if_pos hreaped]
    exact checkStopTimeouts_aborts hreaped h
  have hdown : ((reapChildren world).andThen checkStopTimeouts).mode ≠ .up := by simp [hchecked]
  unfold onTimer
  rw [if_neg (by simp [hsignal])]
  simp only [andThen_of_down hdown]
  exact hchecked

theorem shutdownAll_survives {world : World} (hsound : Sound world) (htimes : world.TimesStops)
    (hup : world.mode = .up) (hidle : world.deadline = none)
    (hfirst : world.shuttingDown = false) : (shutdownAll world).mode ≠ .aborted := by
  rcases shutdownAll_mode hsound htimes hup hidle hfirst with hmode | hmode <;> simp [hmode]

theorem waitStopped_survives (i fuel : Nat) {world : World} (hup : world.mode = .up)
    (htimed : world.Timed) : (waitStopped i fuel world).mode ≠ .aborted := by
  induction fuel generalizing world with
  | zero => simp [waitStopped]
  | succ fuel ih =>
      unfold waitStopped
      cases hentry : world.processes[i]? with
      | none => simp [onEntry_none hentry, hup]
      | some mp =>
          rw [onEntry_some hentry]
          split
          next =>
            obtain ⟨hpolled, htimed', _⟩ := PollKeeps.timed.poll hup htimed htimed
            change ((poll world).andThen (waitStopped i fuel)).mode ≠ .aborted
            rw [andThen, if_pos hpolled]
            exact ih hpolled htimed'
          next => simp [hup]

/-- The wait throws in its first iteration or not at all. -/
theorem waitStopped_aborts_iff {i : Nat} (fuel : Nat) {world : World} (hsound : Sound world)
    (htimes : world.TimesStops) (hup : world.mode = .up) (hwaits : Waits i world) :
    (waitStopped i (fuel + 1) world).mode = .aborted ↔
      (reapChildren world.interact).Unasked := by
  obtain ⟨mp, hentry, hstopping⟩ := hwaits
  have hroutine : Routine .routine := rfl
  have hreaping := (interact_acts hroutine world).trans (reapChildren_acts hroutine _)
  have hreaped : (reapChildren world.interact).mode = .up := PollKeeps.up.reapLoop _ hup
  have hfirst : waitStopped i (fuel + 1) world =
      (checkStopTimeouts (reapChildren world.interact)).andThen (waitStopped i fuel) := by
    rw [waitStopped, onEntry_some hentry, if_pos hstopping]
    exact congrArg (fun polled => World.andThen polled (waitStopped i fuel)) (if_pos hreaped)
  rw [hfirst]
  by_cases hunasked : (reapChildren world.interact).Unasked
  · have haborted := checkStopTimeouts_aborts hreaped hunasked
    rw [andThen_of_down (by simp [haborted])]
    exact iff_of_true haborted hunasked
  · have htimed := (acts_timesStops hreaping hsound htimes).timed_of_not_unasked
      (acts_sound hreaping hsound) hunasked
    obtain ⟨hchecked, htimed', _⟩ := PollKeeps.timed.checkStopTimeouts hreaped htimed htimed
    rw [andThen, if_pos hchecked]
    exact iff_of_false (waitStopped_survives i fuel hchecked htimed') hunasked

theorem startManually_up (i : Nat) (name success failure : String) {world : World}
    (h : Serene world) : (startManually i name success failure world).mode = .up := by
  have hreset : (resetForStart i name world).mode = world.mode := by
    unfold resetForStart
    split <;> rfl
  have hstarted := startProcess_serene i ⟨hreset.trans h.up, h.clocked.resetForStart i name⟩
  refine andThen_mode_up hstarted.up ?_
  refine (onEntry_frame mode i _ fun mp _ => ?_).trans hstarted.up
  split <;> rfl

end World

/-! ## Every callback -/

/-- The first `check_stop_timeouts` of a tick, or of the wait of a restart request, finds a child
that has not been asked to stop. -/
inductive Throws (world : World) (label : Label) : Prop where
  | tick (hup : world.mode = .up) (hrequest : label.request = .timer)
      (hsignal : world.signalReceived = false)
      (hfinds : (World.reapChildren (world.entered label)).Unasked)
  | wait (hup : world.mode = .up) (name : String) (hname : name ≠ "")
      (hrequest : label.request = .restart name) (i : Nat) (mp : ManagedProcess)
      (hfind : world.findProcess name = some i) (hentry : world.processes[i]? = some mp)
      (hlive : mp.state.live)
      (hfinds : (World.reapChildren
        ((world.entered label).askedToRestart i mp).interact).Unasked)

/-- What holds between callbacks about the times that they go by. -/
structure WellTimed (world : World) : Prop where
  ready : Ready world
  timesStops : world.TimesStops
  clocked : world.Clocked

theorem wellTimed_initial (config : Config) (nodes : List ProcessNode) (ros steady : Int) :
    WellTimed (initial config nodes ros steady) :=
  ⟨ready_initial config nodes ros steady, timesStops_initial config nodes ros steady,
    clocked_initial config nodes ros steady⟩

theorem step_wellTimed {world : World} (label : Label) (h : WellTimed world) :
    WellTimed (step world label) :=
  have hacts := step_acts label h.ready
  ⟨step_ready label h.ready, acts_timesStops hacts h.ready.sound h.timesStops,
    acts_clocked hacts h.clocked⟩

section Step

variable {world : World} {label : Label}

theorem not_throws (htimer : label.request = .timer → world.signalReceived = true)
    (hrestart : ∀ name, label.request = .restart name → name = "") : ¬ Throws world label := by
  intro hthrows
  cases hthrows with
  | tick _ hrequest hsignal => simp [htimer hrequest] at hsignal
  | wait _ name hname hrequest => exact hname (hrestart name hrequest)

theorem dispatch_timer_aborts_iff (h : WellTimed world) (hup : world.mode = .up)
    (hrequest : label.request = .timer) :
    (World.onTimer (world.entered label)).mode = .aborted ↔ Throws world label := by
  have hsound : Sound (world.entered label) := h.ready.sound.of_same rfl rfl
  cases hsignal : world.signalReceived with
  | true =>
      refine iff_of_false ?_ (not_throws (fun _ => hsignal) fun name hrestart => ?_)
      · have hsurvives := World.shutdownAll_survives hsound h.timesStops hup
          (h.ready.idle hup).1 (h.ready.idle hup).2
        have hsignal' : (world.entered label).signalReceived = true := hsignal
        rw [World.onTimer, if_pos hsignal', World.andThen]
        split
        · simp
        · exact hsurvives
      · simp [hrequest] at hrestart
  | false =>
      have hserene : Serene (world.entered label) := ⟨hup, h.clocked.of_same rfl rfl⟩
      constructor
      · intro haborted
        refine .tick hup hrequest hsignal (by_contra fun hnone => ?_)
        rw [World.onTimer_up hsound h.timesStops hserene hsignal hnone] at haborted
        cases haborted
      · intro hthrows
        cases hthrows with
        | tick _ _ _ hfinds => exact World.onTimer_aborts hup hsignal hfinds
        | wait _ _ _ hrestart => simp [hrequest] at hrestart

theorem waits_iff (hsound : Sound world) {i : Nat} {mp : ManagedProcess}
    (hentry : world.processes[i]? = some mp) :
    Waits i (world.askedToRestart i mp) ↔ mp.state.live := by
  unfold World.askedToRestart
  split
  next hrising =>
    have hlive : mp.state.live := by
      rcases hrising with hstate | hstate <;> exact hstate ▸ trivial
    have hpid := hsound.pidLive mp (List.mem_of_getElem? hentry) hlive
    rw [World.requestStop, World.onEntry_some hentry, if_neg (Int.not_le.mpr hpid)]
    exact iff_of_true ⟨_, getElem?_modify_self hentry, rfl⟩ hlive
  next hrising =>
    constructor
    · rintro ⟨same, hsame, hstopping⟩
      cases hentry.symm.trans hsame
      exact hstopping ▸ trivial
    · intro hlive
      rw [ProcessState.live_iff] at hlive
      exact ⟨mp, hentry, by tauto⟩

theorem askedToRestart_serene {i : Nat} {mp : ManagedProcess} (h : Serene world) :
    Serene (world.askedToRestart i mp) := by
  unfold World.askedToRestart
  split
  next =>
    refine World.onEntry_serene i h fun same _ _ => ?_
    split
    · exact h
    · exact ⟨h.up, (World.interact_serene h).clocked.stopRequested i same.pid⟩
  next => exact h

theorem throws_restart_iff (hup : world.mode = .up) {name : String} (hname : name ≠ "")
    (hrequest : label.request = .restart name) {i : Nat} {mp : ManagedProcess}
    (hfind : world.findProcess name = some i) (hentry : world.processes[i]? = some mp) :
    Throws world label ↔ mp.state.live ∧ (World.reapChildren
      ((world.entered label).askedToRestart i mp).interact).Unasked := by
  constructor
  · intro hthrows
    cases hthrows with
    | tick _ htimer => simp [hrequest] at htimer
    | wait _ _ _ hsame _ _ hfind' hentry' hlive hfinds =>
        cases hrequest.symm.trans hsame
        cases hfind.symm.trans hfind'
        cases hentry.symm.trans hentry'
        exact ⟨hlive, hfinds⟩
  · rintro ⟨hlive, hfinds⟩
    exact .wait hup name hname hrequest i mp hfind hentry hlive hfinds

/-- A restart of one process throws in its wait. -/
theorem handleRestart_aborts_iff (hsound : Sound world) (htimes : world.TimesStops)
    (hserene : Serene world) (hidle : world.deadline = none) {name : String} (hname : name ≠ "")
    {i : Nat} {mp : ManagedProcess} (hfind : world.findProcess name = some i)
    (hentry : world.processes[i]? = some mp) :
    (World.handleRestart name world).mode = .aborted ↔ mp.state.live ∧
      (World.reapChildren (world.askedToRestart i mp).interact).Unasked := by
  have hacts : Acts Act Routine world (world.askedToRestart i mp) :=
    (World.askBeforeRestart_acts hsound hidle hentry).1
  have hasked : Serene (world.askedToRestart i mp) := askedToRestart_serene hserene
  have hwaits := waits_iff hsound hentry
  obtain ⟨success, failure, hrestart⟩ := handleRestart_eq hname hfind hentry
  rw [hrestart]
  generalize world.askedToRestart i mp = asked at hacts hasked hwaits ⊢
  by_cases hlive : mp.state.live
  · have hiff := World.waitStopped_aborts_iff asked.script.length (acts_sound hacts hsound)
      (acts_timesStops hacts hsound htimes) hasked.up (hwaits.mpr hlive)
    rw [and_iff_right hlive, ← hiff]
    have hwaited := (World.waitStopped_acts i (asked.script.length + 1) asked).1
    generalize World.waitStopped i (asked.script.length + 1) asked = waited at hwaited ⊢
    by_cases hup : waited.mode = .up
    · have hstarted := World.startManually_up i name success failure
        ⟨hup, acts_clocked hwaited hasked.clocked⟩
      exact iff_of_false (by simp [World.andThen_mode_up hup hstarted]) (by simp [hup])
    · rw [World.andThen_of_down hup]
  · have hends : EndsAfter World.poll (Waits i) asked 0 :=
      ⟨fun k hk => absurd hk (Nat.not_lt_zero k), fun hwait => hlive (hwaits.mp hwait)⟩
    have hnone : World.waitStopped i (asked.script.length + 1) asked = asked := by
      refine World.waitStopped_eq hends (fun k hk => ?_) (Nat.succ_pos _)
      rw [Nat.le_zero.mp hk]
      exact hasked.up
    rw [hnone]
    refine iff_of_false ?_ fun h => hlive h.1
    simp [World.andThen_mode_up hasked.up (World.startManually_up i name success failure hasked)]

theorem dispatch_restart_aborts_iff (h : WellTimed world) (hup : world.mode = .up)
    {name : String} (hrequest : label.request = .restart name) :
    (World.handleRestart name (world.entered label)).mode = .aborted ↔ Throws world label := by
  have hsound : Sound (world.entered label) := h.ready.sound.of_same rfl rfl
  have hserene : Serene (world.entered label) := ⟨hup, h.clocked.of_same rfl rfl⟩
  have hidle := h.ready.idle hup
  by_cases hname : name = ""
  · refine iff_of_false ?_ (not_throws (fun htimer => ?_) fun other hother => ?_)
    · have hsurvives := World.shutdownAll_survives hsound h.timesStops hserene.up hidle.1 hidle.2
      rw [World.handleRestart, if_pos hname, World.andThen]
      split
      next hreturns =>
        show (World.resetAll { World.shutdownAll (world.entered label) with
          shuttingDown := false }).mode ≠ .aborted
        rw [World.resetAll_mode]
        exact hsurvives
      next => exact hsurvives
    · simp [hrequest] at htimer
    · cases hrequest.symm.trans hother
      exact hname
  cases hfind : world.findProcess name with
  | none =>
      have hfind' : (world.entered label).findProcess name = none := hfind
      refine iff_of_false ?_ fun hthrows => ?_
      · rw [World.handleRestart, if_neg hname, hfind']
        simp [World.respond, hserene.up]
      · cases hthrows with
        | tick _ htimer => simp [hrequest] at htimer
        | wait _ other _ hother i _ hsome =>
            cases hrequest.symm.trans hother
            cases hfind.symm.trans hsome
  | some i =>
      obtain ⟨mp, hentry, _⟩ := World.findProcess_some hfind
      rw [throws_restart_iff hup hname hrequest hfind hentry]
      exact handleRestart_aborts_iff hsound h.timesStops hserene hidle.1 hname hfind hentry

theorem handleStop_survives (hsound : Sound world) (htimes : world.TimesStops)
    (hup : world.mode = .up) (hidle : world.deadline = none) (hfirst : world.shuttingDown = false)
    (name : String) : (World.handleStop name world).mode ≠ .aborted := by
  unfold World.handleStop
  split
  next =>
    have hsurvives := World.shutdownAll_survives hsound htimes hup hidle hfirst
    rw [World.andThen]
    split <;> exact hsurvives
  next =>
    split
    next => simp [World.respond, hup]
    next i _ =>
      refine ne_of_eq_of_ne (World.onEntry_up i hup fun mp _ => ?_) (by decide)
      split
      · exact hup
      · show (World.requestStop i world).mode = .up
        refine World.onEntry_up i hup fun same _ => ?_
        split <;> exact hup

theorem handleStart_up (h : Serene world) (name : String) :
    (World.handleStart name world).mode = .up := by
  unfold World.handleStart
  split
  next => exact h.up
  next =>
    split
    next => exact h.up
    next i _ =>
      refine World.onEntry_up i h.up fun mp _ => ?_
      split
      · exact h.up
      · exact World.startManually_up i name _ _ h

theorem handleGetStatus_up (h : Serene world) (name : String) :
    (World.handleGetStatus name world).mode = .up := by
  unfold World.handleGetStatus
  split
  next =>
    obtain ⟨statuses, later, hcollect, hlater⟩ :=
      World.collectStatuses_some h.clocked.entries [] h.up
    rw [hcollect]
    exact hlater
  next =>
    split
    next => exact h.up
    next i _ =>
      refine World.onEntry_up i h.up fun mp hentry => ?_
      obtain ⟨statuses, later, hcollect, hlater⟩ := World.collectStatuses_some
        (List.forall_mem_singleton.mpr (h.clocked.entries mp (List.mem_of_getElem? hentry))) [] h.up
      rw [hcollect]
      exact hlater

/-- A callback ends the node with an exception exactly in the two cases. -/
theorem step_aborts_iff (label : Label) (h : WellTimed world) (hup : world.mode = .up) :
    (step world label).mode = .aborted ↔ Throws world label := by
  have hstep : step world label = dispatch label.request (world.entered label) := if_pos hup
  have hsound : Sound (world.entered label) := h.ready.sound.of_same rfl rfl
  have hserene : Serene (world.entered label) := ⟨hup, h.clocked.of_same rfl rfl⟩
  have hidle := h.ready.idle hup
  rw [hstep]
  -- Most callbacks do not even check the requests.
  have hother : (∀ name, label.request ≠ .restart name) → label.request ≠ .timer →
      ¬ Throws world label := fun hrestart htimer =>
    not_throws (fun hrequest => absurd hrequest htimer)
      fun name hrequest => absurd hrequest (hrestart name)
  cases hrequest : label.request with
  | timer => exact dispatch_timer_aborts_iff h hup hrequest
  | restart name => exact dispatch_restart_aborts_iff h hup hrequest
  | stop name =>
      refine iff_of_false ?_ (hother (by simp [hrequest]) (by simp [hrequest]))
      exact handleStop_survives hsound h.timesStops hserene.up hidle.1 hidle.2 name
  | start name =>
      refine iff_of_false ?_ (hother (by simp [hrequest]) (by simp [hrequest]))
      simp [dispatch, handleStart_up hserene name]
  | getStatus name =>
      refine iff_of_false ?_ (hother (by simp [hrequest]) (by simp [hrequest]))
      simp [dispatch, handleGetStatus_up hserene name]
  | odometry =>
      refine iff_of_false ?_ (hother (by simp [hrequest]) (by simp [hrequest]))
      rw [dispatch, deliver]
      split
      · simp [hserene.up]
      · simp [World.odinHealthCb, World.interact, World.record, hserene.up]
  | shutdown | signal | idle =>
      refine iff_of_false ?_ (hother (by simp [hrequest]) (by simp [hrequest]))
      simp [dispatch, World.handleShutdown, World.respond, World.interact, hserene.up]

/-- The same of the node whether it is up or not. -/
theorem step_survives_iff (label : Label) (h : WellTimed world) :
    (step world label).mode ≠ .aborted ↔ world.mode ≠ .aborted ∧ ¬ Throws world label := by
  by_cases hup : world.mode = .up
  · rw [← step_aborts_iff label h hup]
    simp [hup]
  · have hnone : ¬ Throws world label := fun hthrows => by cases hthrows <;> contradiction
    have hstep : step world label = world := if_neg hup
    simp [hstep, hnone]

end Step

/-! ## Who is to blame -/

/-- No child comes back, and the health check gives no verdict. -/
theorem World.GiveUpsReaped.of_quiet {world next : World} (h : world.GiveUpsReaped)
    (hchildren : ∀ child ∈ next.children, ∃ old ∈ world.children, old.serial = child.serial)
    (hlog : ∀ pid serial, .healthKilled pid (some serial) true ∈ next.log →
      .healthKilled pid (some serial) true ∈ world.log) : next.GiveUpsReaped := by
  intro pid serial hgave child hchild hsame
  obtain ⟨old, hold, hserial⟩ := hchildren child hchild
  exact h pid serial (hlog pid serial hgave) old hold (hserial.trans hsame)

theorem World.PollKeeps.giveUpsReaped : World.PollKeeps World.GiveUpsReaped where
  interact world h := by
    refine h.of_quiet (fun child hchild => ?_) fun _ _ hgave => hgave
    obtain ⟨old, hold, rfl⟩ := List.mem_map.mp hchild
    exact ⟨old, hold, (Child.pass_serial _ _).symm⟩
  reap world child status _ _ h := by
    have hreaped := World.reapOne_reaped child status world
    refine h.of_quiet (fun other hother => ?_) fun _ _ hgave => hreaped.log ▸ hgave
    obtain ⟨_, old, hold, _, hserial⟩ := hreaped.children other hother
    exact ⟨old, hold, hserial⟩
  kill world i mp _ _ _ h := by
    refine h.of_quiet (fun child hchild => ?_) fun pid serial hgave => ?_
    · obtain ⟨old, hold, rfl⟩ := List.mem_map.mp hchild
      exact ⟨old, hold, by split <;> rfl⟩
    · exact (List.mem_cons.mp hgave).resolve_left fun hevent => by cases hevent

theorem World.GiveUpsReaped.askedToRestart {world : World} (h : world.GiveUpsReaped) (i : Nat)
    (mp : ManagedProcess) : (world.askedToRestart i mp).GiveUpsReaped := by
  unfold World.askedToRestart World.requestStop World.onEntry
  split
  next =>
    split
    next => exact h
    next same _ =>
      dsimp only
      split
      next => exact h
      next =>
        refine (World.PollKeeps.giveUpsReaped.interact world h).of_quiet
          (fun child hchild => ⟨child, hchild, rfl⟩) fun pid serial hgave => ?_
        exact (List.mem_cons.mp hgave).resolve_left fun hevent => by cases hevent
  next => exact h

/-- Such a child is one that the health check has given up on and that had not been reaped when the
callback began. -/
theorem Throws.not_giveUpsReaped {world : World} {label : Label} (h : WellTimed world)
    (hthrows : Throws world label) : ¬ world.GiveUpsReaped := by
  intro hreaped
  have hroutine : Routine .routine := rfl
  have hsound : Sound (world.entered label) := h.ready.sound.of_same rfl rfl
  have hquiet : (world.entered label).GiveUpsReaped := hreaped
  have hnone : ∀ {begun : World}, Acts Act Routine (world.entered label) begun →
      begun.GiveUpsReaped → ¬ (World.reapChildren begun).Unasked := by
    intro begun hbegun hquiet hfinds
    have hreaping := hbegun.trans (World.reapChildren_acts hroutine begun)
    obtain ⟨mp, _, _, _, serial, hserial, hgave⟩ :=
      hfinds.givenUp (acts_timesStops hreaping hsound h.timesStops)
    obtain ⟨child, hchild, _, hsame⟩ := World.mem_serials_of_serialOf hserial
    exact World.PollKeeps.giveUpsReaped.reapLoop _ hquiet mp.pid serial hgave child hchild hsame
  cases hthrows with
  | tick _ _ _ hfinds => exact hnone (Acts.refl _) hquiet hfinds
  | wait hup name _ _ i mp _ hentry _ hfinds =>
      have hacts : Acts Act Routine (world.entered label)
          ((world.entered label).askedToRestart i mp) :=
        (World.askBeforeRestart_acts hsound (h.ready.idle hup).1 hentry).1
      refine hnone (hacts.trans (World.interact_acts hroutine _))
        (World.PollKeeps.giveUpsReaped.interact _ ?_) hfinds
      exact hquiet.askedToRestart i mp

/-! ## Runs -/

/-- A run ends in an exception exactly if one of its ticks, or of its requests to restart one
process, comes across a child that counts as stopping without having been asked. That is one that
the health check has given up on and that has not been reaped. -/
theorem run_aborts_iff (config : Config) (nodes : List ProcessNode) (ros steady : Int)
    (labels : List Label) :
    ((run step (initial config nodes ros steady) labels).mode = .aborted ↔
        ¬ EveryStep step (fun world label => ¬ Throws world label)
          (initial config nodes ros steady) labels) ∧
      EveryStep step (fun world label => Throws world label → ¬ world.GiveUpsReaped)
        (initial config nodes ros steady) labels := by
  have hstart := wellTimed_initial config nodes ros steady
  have hkeeps := fun world label (h : WellTimed world) => step_wellTimed label h
  have hsurvives := run_holds_iff step WellTimed (fun world => world.mode ≠ .aborted)
    (fun world label h => ⟨hkeeps world label h, step_survives_iff label h⟩) labels hstart
  refine ⟨?_, ?_⟩
  · rw [← not_iff_not, not_not]
    exact hsurvives.trans (and_iff_right (by simp [initial]))
  · exact everyStep_of_invariant step WellTimed hkeeps
      (fun _ _ h hthrows => hthrows.not_giveUpsReaped h) labels hstart

set_option maxRecDepth 4000 in
/-- The child that the health check has given up on takes until after the next tick to exit. -/
example : (run step (initial { odinHealthMaxFails := 0 } [odinDriver] 0 0)
    (heardRun ++ [⟨.timer, []⟩])).mode = .aborted := by
  decide

end AcflyRos.Daemon

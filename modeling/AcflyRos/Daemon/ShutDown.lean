import AcflyRos.Daemon.Escalation
import AcflyRos.Daemon.GivingUp
import AcflyRos.Daemon.RestartWait
import Mathlib.Algebra.BigOperators.Group.List.Basic

/-! # Shutting the node down

`shutdown_all` polls until every entry is down or its deadline has passed. A request that stops
everything first asks each child to stop, and so leaves no stop flag with a time of another clock:
the loop throws no exception, and it ends once the node clock has reached the deadline, whatever
the children do. The tick that finds a signal then ends the node.
-/

namespace AcflyRos.Daemon

open AcflyRos.Transition AcflyRos.Table

/-- How far the node clock moves over a script. -/
def passes (script : List Beat) : Int :=
  (script.map fun beat => (beat.elapsed : Int) + beat.jump).sum

@[simp] theorem passes_nil : passes [] = 0 := rfl

@[simp] theorem passes_cons (beat : Beat) (script : List Beat) :
    passes (beat :: script) = beat.elapsed + beat.jump + passes script :=
  List.sum_cons

/-- Less time is left when more of the script has been played. -/
theorem passes_drop_le {script : List Beat} (hmonotone : ∀ beat ∈ script, beat.Monotone)
    {early late : Nat} (hle : early ≤ late) :
    passes (script.drop late) ≤ passes (script.drop early) := by
  induction script generalizing early late with
  | nil => simp
  | cons beat rest ih =>
      rw [List.forall_mem_cons] at hmonotone
      have hbeat : 0 ≤ (beat.elapsed : Int) + beat.jump := hmonotone.1
      cases late with
      | zero => rw [Nat.le_zero.mp hle]
      | succ late =>
          cases early with
          | zero =>
              have hrest := ih hmonotone.2 (Nat.zero_le late)
              simp only [List.drop_succ_cons, List.drop_zero, passes_cons] at hrest ⊢
              omega
          | succ early => exact ih hmonotone.2 (Nat.le_of_succ_le_succ hle)

theorem acts_timesStops {allow : Kind → Prop} {world next : World}
    (hacts : Acts Act allow world next) (hsound : Sound world) (htimes : world.TimesStops) :
    next.TimesStops :=
  (hacts.keeps (fun later => Sound later ∧ later.TimesStops)
    (fun _ _ _ _ hact h => ⟨hact.sound h.1, hact.timesStops h.1 h.2⟩) ⟨hsound, htimes⟩).2

namespace World

theorem andThen_mode_up {world : World} {next : World → World} (hup : world.mode = .up)
    (hnext : (next world).mode = .up) : (world.andThen next).mode = .up := by
  rwa [andThen, if_pos hup]

theorem andThen_of_down {world : World} (hdown : world.mode ≠ .up) (next : World → World) :
    world.andThen next = world :=
  if_neg hdown

/-! ## The loop ends -/

theorem passes_interact (world : World) :
    world.interact.ros + passes world.interact.script = world.ros + passes world.script := by
  cases hscript : world.script with
  | nil => simp [interact, beat, hscript]
  | cons beat rest =>
      simp only [interact, World.beat, hscript, List.headD_cons, List.tail_cons, passes_cons]
      omega

/-- What is left of the script tells how far the clock can still move. -/
theorem PollKeeps.ends (time : Int) :
    PollKeeps fun world => world.ros + passes world.script = time where
  interact world h := world.passes_interact.trans h
  reap world child status _ _ h := by
    rcases (reapOne_reaped child status world).time with ⟨hscript, hros⟩ | ⟨hscript, hros⟩
    · rwa [hscript, hros]
    · rw [hscript, hros]
      exact world.passes_interact.trans h
  kill _ _ _ _ _ _ h := h

/-- The loop of `shutdown_all` ends if the script takes the clock to the deadline. -/
theorem shutdownPoll_up {fuel : Nat} {world : World} {deadline : Time} (hup : world.mode = .up)
    (htimed : world.Timed) (hdeadline : world.deadline = some deadline)
    (hreached : deadline.nanoseconds ≤ world.ros + passes world.script)
    (hfuel : world.script.length < fuel) : (shutdownPoll fuel world).mode = .up := by
  induction fuel generalizing world with
  | zero => exact absurd hfuel (Nat.not_lt_zero _)
  | succ fuel ih =>
      have hroutine : Routine .routine := rfl
      have hread : world.interact.deadline = some deadline := hdeadline
      unfold shutdownPoll
      simp only [hread]
      split
      next hearly =>
        -- The clock has to move on, and only the script moves it.
        have hused : world.interact.script.length + 1 ≤ world.script.length := by
          cases hscript : world.script with
          | nil =>
              have hstill := (PollKeeps.still world.ros).interact world ⟨hscript, rfl⟩
              rw [hscript, passes_nil] at hreached
              omega
          | cons beat rest => simp [interact, hscript]
        obtain ⟨hpolled, htimed', _, hends⟩ :=
          (PollKeeps.ends _).poll hup htimed world.passes_interact
        obtain ⟨_, _, _, hshorter⟩ :=
          (PollKeeps.shorter world.interact.script.length).poll hup htimed le_rfl
        have hacts : Acts Act Routine world (poll world) :=
          (interact_acts hroutine world).trans
            (andThen_acts (reapChildren_acts hroutine _) fun _ => checkStopTimeouts_acts hroutine _)
        have hdeadline' := (acts_deadline Routine.ordinary hacts).trans hdeadline
        change ((poll world).andThen _).mode = .up
        refine andThen_mode_up hpolled ?_
        split
        · exact hpolled
        · refine ih hpolled htimed' hdeadline' ?_ ?_
          · rw [passes_interact, hends]
            exact hreached
          · have htail := (PollKeeps.shorter _).interact (poll world) hshorter
            omega
      next => exact hup

/-- The loop of `shutdown_all` ends, or is still polling. -/
theorem shutdownPoll_mode (fuel : Nat) {world : World} (hup : world.mode = .up)
    (htimed : world.Timed) :
    (shutdownPoll fuel world).mode = .up ∨ (shutdownPoll fuel world).mode = .blocked := by
  induction fuel generalizing world with
  | zero => exact Or.inr rfl
  | succ fuel ih =>
      unfold shutdownPoll
      dsimp only
      split
      next => exact Or.inl hup
      next =>
        split
        next =>
          obtain ⟨hpolled, htimed', _⟩ := PollKeeps.timed.poll hup htimed htimed
          have hnext := fun next => show (poll world).andThen next = next (poll world) from
            if_pos hpolled
          change ((poll world).andThen _).mode = .up ∨ ((poll world).andThen _).mode = .blocked
          rw [hnext]
          split
          · exact Or.inl hpolled
          · exact ih hpolled htimed'
        next => exact Or.inl hup

/-! ## The requests before it -/

theorem each_drops {body : Nat → World → World}
    (hbody : ∀ i world, ∃ k ≤ 1, (body i world).script = world.script.drop k) (order : List Nat)
    (world : World) :
    ∃ k ≤ order.length, (world.each order body).script = world.script.drop k := by
  induction order generalizing world with
  | nil => exact ⟨0, le_rfl, rfl⟩
  | cons i rest ih =>
      obtain ⟨first, hfirst, hscript⟩ : ∃ k ≤ 1, (world.andThen (body i)).script =
          world.script.drop k := by
        unfold andThen
        split
        · exact hbody i world
        · exact ⟨0, Nat.zero_le 1, rfl⟩
      obtain ⟨others, hothers, hrest⟩ := ih (world.andThen (body i))
      refine ⟨first + others, ?_, ?_⟩
      · rw [List.length_cons]
        omega
      · exact hrest.trans (by rw [hscript, List.drop_drop])

/-- Sending SIGINT reads the clock once for each entry at most. -/
theorem requestStopAll_script (world : World) :
    ∃ k ≤ world.processes.length, (requestStopAll world).script = world.script.drop k := by
  have hlength : world.indices.reverse.length = world.processes.length := by simp [indices]
  rw [← hlength]
  refine each_drops (fun i later => ?_) _ world
  have hkept : ∃ k ≤ 1, later.script = later.script.drop k := ⟨0, Nat.zero_le 1, rfl⟩
  cases hentry : later.processes[i]? with
  | none =>
      rw [onEntry_none hentry]
      exact hkept
  | some mp =>
    rw [onEntry_some hentry]
    split
    next =>
      rw [requestStop, onEntry_some hentry]
      split
      next => exact hkept
      next => exact ⟨1, le_rfl, List.drop_one.symm⟩
    next => exact hkept

/-- Once everything has been asked to stop, no stop flag is left that the health check has set. -/
theorem requestStopAll_timed {world : World} (hsound : Sound world) (htimes : world.TimesStops)
    (hup : world.mode = .up) (hidle : world.deadline = none) : (requestStopAll world).Timed := by
  obtain ⟨hacts, _, _, hall⟩ := requestStopAll_acts hsound hup hidle
  intro mp hmp hstopping
  obtain ⟨i, hi⟩ := List.mem_iff_getElem?.mp hmp
  exact (acts_timesStops hacts hsound htimes i mp hi hstopping).resolve_right fun hrunning =>
    (acts_sound hacts hsound).not_rising hmp (hall mp hmp) (Or.inr hrunning.1)

/-- The loop of `shutdown_all` begins with all requests timed, and is all that may not return. -/
theorem shutdownAll_polls {world : World} (hsound : Sound world) (htimes : world.TimesStops)
    (hup : world.mode = .up) (hidle : world.deadline = none)
    (hfirst : world.shuttingDown = false) :
    ∃ (begun : World) (deadline : Time), begun.mode = .up ∧ begun.Timed ∧
      begun.deadline = some deadline ∧
      deadline.nanoseconds = begun.ros + world.config.gracefulShutdownTimeout ∧
      (∃ k ≤ world.processes.length, begun.script = world.script.drop (k + 1)) ∧
      (shutdownAll world).mode = (shutdownPoll (begun.script.length + 1) begun).mode := by
  have hsound' : Sound { world with shuttingDown := true } := hsound.of_same rfl rfl
  obtain ⟨hasking, hup', _⟩ := requestStopAll_acts hsound' hup hidle
  have htimed := requestStopAll_timed hsound' htimes hup hidle
  obtain ⟨k, hk, hscript⟩ := requestStopAll_script { world with shuttingDown := true }
  have hconfig := acts_config hasking
  have hasked := acts_sound hasking hsound'
  unfold shutdownAll
  simp only [hfirst, Bool.false_eq_true, if_false]
  generalize requestStopAll { world with shuttingDown := true } = asked at *
  set begun := { asked.interact with deadline := some ⟨asked.interact.ros +
    asked.interact.config.gracefulShutdownTimeout, .rosTime⟩ }
  have hdeadline : begun.deadline = some _ := rfl
  refine ⟨begun, _, hup', htimed, hdeadline, ?_, ⟨k, hk, ?_⟩, ?_⟩
  · show _ + asked.config.gracefulShutdownTimeout = _
    rw [hconfig]
  · calc asked.interact.script = asked.script.tail := rfl
      _ = (world.script.drop k).tail := congrArg List.tail hscript
      _ = world.script.drop (k + 1) := List.tail_drop
  · obtain ⟨hpoll, hwaited⟩ := shutdownPoll_spec (begun.script.length + 1) hdeadline
    have hbegun : Sound begun := hasked.of_same rfl asked.childPids_interact
    by_cases hpolled : (shutdownPoll (begun.script.length + 1) begun).mode = .up
    · obtain ⟨_, hkilled, _⟩ := killRemaining_acts (acts_sound hpoll hbegun)
        (acts_deadline Routine.ordinary hpoll) (hwaited hpolled) hpolled
      have hdone := andThen_mode_up hpolled hkilled
      exact (andThen_mode_up hdone hdone).trans hpolled.symm
    · rw [andThen_of_down hpolled killRemaining, andThen_of_down hpolled]

theorem shutdownAll_mode {world : World} (hsound : Sound world) (htimes : world.TimesStops)
    (hup : world.mode = .up) (hidle : world.deadline = none)
    (hfirst : world.shuttingDown = false) :
    (shutdownAll world).mode = .up ∨ (shutdownAll world).mode = .blocked := by
  obtain ⟨begun, _, hup', htimed, _, _, _, hmode⟩ :=
    shutdownAll_polls hsound htimes hup hidle hfirst
  rw [hmode]
  exact shutdownPoll_mode _ hup' htimed

/-- Whatever the children do, `shutdown_all` returns if its script covers the time that it
allows. -/
theorem shutdownAll_up {world : World} (hsound : Sound world) (htimes : world.TimesStops)
    (hup : world.mode = .up) (hidle : world.deadline = none) (hfirst : world.shuttingDown = false)
    (hmonotone : ∀ beat ∈ world.script, beat.Monotone)
    (hlong : world.config.gracefulShutdownTimeout ≤
      passes (world.script.drop (world.processes.length + 1))) :
    (shutdownAll world).mode = .up := by
  obtain ⟨begun, deadline, hup', htimed, hdeadline, htime, ⟨k, hk, hscript⟩, hmode⟩ :=
    shutdownAll_polls hsound htimes hup hidle hfirst
  rw [hmode]
  refine shutdownPoll_up hup' htimed hdeadline ?_ (Nat.lt_succ_self _)
  rw [htime, hscript]
  exact Int.add_le_add_left (hlong.trans (passes_drop_le hmonotone (Nat.succ_le_succ hk))) _

theorem resetAll_mode (world : World) : (resetAll world).mode = world.mode := by
  unfold resetAll
  dsimp only
  split <;> rfl

end World

/-! ## The requests that stop everything -/

/-- A request that runs `shutdown_all`. -/
def StopsEverything (world : World) (label : Label) : Prop :=
  label.request = .stop "" ∨ label.request = .restart "" ∨
    label.request = .timer ∧ world.signalReceived = true

/-- After a reading of the clock for each entry and one for the deadline, the script takes the
clock at least that far. -/
structure Label.Covers (label : Label) (timeout : Int) (entries : Nat) : Prop where
  monotone : label.Monotone
  long : timeout ≤ passes (label.script.drop (entries + 1))

/-- The request has been served to its end: a service answers, and the timer ends the node. -/
structure Completed (label : Label) (next : World) : Prop where
  served : label.request ≠ .timer →
    next.mode = .up ∧ ∃ message, next.response = some ⟨true, message, []⟩
  ended : label.request = .timer → next.mode = .shutDown

/-- `shutdown_all` returns to the callback that runs it. -/
theorem shutdownAll_returns {world : World} {label : Label} (hready : Ready world)
    (htimes : world.TimesStops) (hup : world.mode = .up)
    (hcovers : label.Covers world.config.gracefulShutdownTimeout world.processes.length) :
    (World.shutdownAll (world.entered label)).mode = .up :=
  World.shutdownAll_up (hready.sound.of_same rfl rfl) htimes hup (hready.idle hup).1
    (hready.idle hup).2 hcovers.monotone hcovers.long

theorem step_completed {world : World} {label : Label} (hready : Ready world)
    (htimes : world.TimesStops) (hup : world.mode = .up) (hasks : StopsEverything world label)
    (hcovers : label.Covers world.config.gracefulShutdownTimeout world.processes.length) :
    Completed label (step world label) := by
  have hreturns := shutdownAll_returns hready htimes hup hcovers
  have hstep : step world label = dispatch label.request (world.entered label) := if_pos hup
  rw [hstep]
  rcases hasks with hrequest | hrequest | ⟨hrequest, hsignal⟩
  · refine ⟨fun _ => ?_, fun htimer => by simp [hrequest] at htimer⟩
    simp only [hrequest, dispatch, World.handleStop, if_true, World.andThen, if_pos hreturns]
    exact ⟨hreturns, _, rfl⟩
  · refine ⟨fun _ => ?_, fun htimer => by simp [hrequest] at htimer⟩
    simp only [hrequest, dispatch, World.handleRestart, if_true, World.andThen, if_pos hreturns]
    exact ⟨(World.resetAll_mode _).trans hreturns, _, rfl⟩
  · refine ⟨fun hservice => absurd hrequest hservice, fun _ => ?_⟩
    have hsignal' : (world.entered label).signalReceived = true := hsignal
    simp only [hrequest, dispatch, World.onTimer, if_pos hsignal', World.andThen,
      if_pos hreturns]

/-- In every reachable state, whatever the children do and whatever the health check has decided,
a request that stops everything is served to its end. -/
theorem run_completed (config : Config) (nodes : List ProcessNode) (ros steady : Int)
    (labels : List Label) (label : Label)
    (hup : (run step (initial config nodes ros steady) labels).mode = .up)
    (hasks : StopsEverything (run step (initial config nodes ros steady) labels) label)
    (hcovers : label.Covers config.gracefulShutdownTimeout nodes.length) :
    Completed label (step (run step (initial config nodes ros steady) labels) label) := by
  have hinitial := ready_initial config nodes ros steady
  have htimes := run_timesStops labels hinitial (timesStops_initial config nodes ros steady)
  apply step_completed (run_ready labels hinitial) htimes hup hasks
  rw [run_config labels hinitial, World.length_of_names (run_names labels hinitial)]
  simpa [initial] using hcovers

/-- One process that has been asked to stop by an earlier request. -/
def requestedRun : List Label := [forkingTick 100, ⟨.timer, []⟩, ⟨.stop "mavros", []⟩]

/-- The child does not react for eleven seconds. -/
def patientScript : List Beat := [{}, {}, { elapsed := 11000000000 }]

theorem covers_patientScript (request : Request) :
    Label.Covers ⟨request, patientScript⟩ (10 * sec) 1 where
  monotone := by simp [Label.Monotone, Beat.Monotone, patientScript]
  long := by
    show 10 * sec ≤ passes (patientScript.drop 2)
    decide

set_option maxRecDepth 4000 in
theorem completed_requestedRun : Completed ⟨.restart "", patientScript⟩
    (step (run step (initial {} [mavros] 0 0) requestedRun) ⟨.restart "", patientScript⟩) :=
  run_completed {} [mavros] 0 0 requestedRun _ (by decide) (Or.inr (Or.inl rfl))
    (covers_patientScript _)

/-! ## Nobody is left -/

theorem Winding.noReset (kind : Kind) (hkind : Winding kind) (i : Nat) :
    kind ≠ .manual i ∧ kind ≠ .displace i := by
  rcases hkind with rfl | rfl <;> exact ⟨Kind.noConfusion, Kind.noConfusion⟩

/-- No entry has a child, and those children that are left have been sent SIGKILL. -/
structure LeavesNone (within : Pid → Prop) (next : World) : Prop where
  idle : ∀ mp ∈ next.processes, mp.pid = -1
  dead : ∀ child ∈ next.children, within child.pid → child.killed = true

/-- The tick that finds a signal ends the node only when `shutdown_all` has returned. -/
theorem shutdownAll_of_down {world : World} {script : List Beat} (hready : Ready world)
    (htimes : world.TimesStops) (hup : world.mode = .up) (hsignal : world.signalReceived = true)
    (hdown : (step world ⟨.timer, script⟩).mode = .shutDown) :
    (World.shutdownAll (world.entered ⟨.timer, script⟩)).mode = .up := by
  have hsignal' : (world.entered ⟨.timer, script⟩).signalReceived = true := hsignal
  have hstep : step world ⟨.timer, script⟩ =
      (World.shutdownAll (world.entered ⟨.timer, script⟩)).andThen
        fun world => { world with mode := .shutDown } := (if_pos hup).trans (if_pos hsignal')
  have hsound : Sound (world.entered ⟨.timer, script⟩) := hready.sound.of_same rfl rfl
  refine (World.shutdownAll_mode hsound htimes hup (hready.idle hup).1
    (hready.idle hup).2).resolve_right fun hblocked => ?_
  rw [hstep, World.andThen_of_down (by simp [hblocked]), hblocked] at hdown
  cases hdown

/-- The tick that finds a signal spares none of the children that the entries own. -/
theorem step_leavesNone {within : Pid → Prop} {world : World} {script : List Beat}
    (hready : Ready world) (hheld : AllHeld world) (htimes : world.TimesStops)
    (howned : Owned within world) (hup : world.mode = .up) (hsignal : world.signalReceived = true)
    (hdown : (step world ⟨.timer, script⟩).mode = .shutDown) :
    LeavesNone within (step world ⟨.timer, script⟩) := by
  have hreturns := shutdownAll_of_down hready htimes hup hsignal hdown
  have hsound : Sound (world.entered ⟨.timer, script⟩) := hready.sound.of_same rfl rfl
  obtain ⟨asked, hask, _, _, hstop, hlast⟩ :=
    World.shutdownAll_acts hsound hup (hready.idle hup).1 (hready.idle hup).2
  have hacts := hask.trans hstop
  have hsound' := acts_sound hacts hsound
  have hidle : ∀ mp ∈ (World.shutdownAll (world.entered ⟨.timer, script⟩)).processes,
      mp.pid = -1 := by
    intro mp hmp
    refine (hsound'.pidSign mp hmp).resolve_right fun hlive => ?_
    -- A child would be held in a state that `shutdown_all` leaves to no entry.
    have hstate := acts_allHeld Winding.noReset hacts hheld mp hmp hlive
    rcases (hlast hreturns).2 mp hmp with hdown | hdown | ⟨_, hnone⟩
    · simp [hdown, ProcessState.live] at hstate
    · simp [hdown, ProcessState.live] at hstate
    · exact absurd hlive (Int.not_lt.mpr hnone)
  have hstep : step world ⟨.timer, script⟩ =
      { World.shutdownAll (world.entered ⟨.timer, script⟩) with mode := .shutDown } := by
    have hsignal' : (world.entered ⟨.timer, script⟩).signalReceived = true := hsignal
    refine (if_pos hup).trans ((if_pos hsignal').trans (if_pos hreturns))
  rw [hstep]
  refine ⟨hidle, fun child hchild hwithin => ?_⟩
  have howned' : Owned within (World.shutdownAll (world.entered ⟨.timer, script⟩)) :=
    acts_owned hacts hsound howned
  cases hkilled : child.killed with
  | true => rfl
  | false =>
      obtain ⟨mp, hmp, hpid⟩ := howned' child hchild hkilled hwithin
      have hlive := hsound'.childPos _ (List.mem_map_of_mem hchild)
      rw [← hpid, hidle mp hmp] at hlive
      exact absurd hlive (by decide)

section Runs

variable (config : Config) (nodes : List ProcessNode) (ros steady : Int) (labels : List Label)
  (script : List Beat)

theorem leavesNone_of_owned {within : Pid → Prop}
    (howned : Owned within (run step (initial config nodes ros steady) labels))
    (hup : (run step (initial config nodes ros steady) labels).mode = .up)
    (hsignal : (run step (initial config nodes ros steady) labels).signalReceived = true)
    (hdown : (step (run step (initial config nodes ros steady) labels) ⟨.timer, script⟩).mode =
      .shutDown) :
    LeavesNone within
      (step (run step (initial config nodes ros steady) labels) ⟨.timer, script⟩) := by
  have hinitial := ready_initial config nodes ros steady
  exact step_leavesNone (run_ready labels hinitial)
    (run_allHeld labels hinitial (allHeld_initial config nodes ros steady))
    (run_timesStops labels hinitial (timesStops_initial config nodes ros steady)) howned hup hsignal
    hdown

/-- In every run, the tick that finds a signal does not end the node before every child that an
entry has at the end has been reaped or sent SIGKILL. -/
theorem run_leavesNoneOwned
    (hup : (run step (initial config nodes ros steady) labels).mode = .up)
    (hsignal : (run step (initial config nodes ros steady) labels).signalReceived = true)
    (hdown : (step (run step (initial config nodes ros steady) labels) ⟨.timer, script⟩).mode =
      .shutDown) :
    LeavesNone (fun pid => ∃ mp ∈ (run step (initial config nodes ros steady) labels).processes,
        mp.pid = pid)
      (step (run step (initial config nodes ros steady) labels) ⟨.timer, script⟩) :=
  leavesNone_of_owned config nodes ros steady labels script (fun _ _ _ hwithin => hwithin) hup
    hsignal hdown

/-- In every run in which no start request finds its entry in STOPPING, the tick that finds a signal
does not end the node before every child has been reaped or sent SIGKILL, whatever the clock and the
children do meanwhile. -/
theorem run_leavesNone
    (hlabels : EveryStep step NoDisplacement (initial config nodes ros steady) labels)
    (hup : (run step (initial config nodes ros steady) labels).mode = .up)
    (hsignal : (run step (initial config nodes ros steady) labels).signalReceived = true)
    (hdown : (step (run step (initial config nodes ros steady) labels) ⟨.timer, script⟩).mode =
      .shutDown) :
    LeavesNone (fun _ => True)
      (step (run step (initial config nodes ros steady) labels) ⟨.timer, script⟩) :=
  have htracked := run_tracked (ready_initial config nodes ros steady)
    (tracked_initial config nodes ros steady) hlabels
  leavesNone_of_owned config nodes ros steady labels script htracked.owned hup hsignal hdown

end Runs

/-- The process is running when the signal comes. -/
def signalledRun : List Label := runningRun ++ [⟨.signal, []⟩]

/-- The node clock is set back by a second, and the child does not react for twelve. -/
def setBackScript : List Beat :=
  [{}, {}, { jump := -1000000000 }, { elapsed := 12000000000 }]

set_option maxRecDepth 4000 in
/-- The child ignores SIGINT and is killed. -/
theorem leavesNone_signalledRun : LeavesNone (fun _ => True)
    (step (run step (initial {} [mavros] 0 0) signalledRun) ⟨.timer, setBackScript⟩) := by
  apply run_leavesNone {} [mavros] 0 0 signalledRun setBackScript _ (by decide) (by decide)
    (by decide)
  refine ⟨noDisplacement_of_request ?_, noDisplacement_of_request ?_,
    noDisplacement_of_request ?_, trivial⟩ <;> exact fun _ hstart => by cases hstart

set_option maxRecDepth 4000 in
/-- A child that was displaced lives on when the node ends. -/
theorem not_leavesNone_displacingRun : ¬ LeavesNone (fun _ => True)
    (step (run step (initial {} [mavros] 0 0) (displacingRun ++ [⟨.signal, []⟩]))
      ⟨.timer, patientScript⟩) := by
  intro hleaves
  have hkilled := hleaves.dead ⟨100, 0, "mavros", none, false⟩ (by decide) trivial
  cases hkilled

end AcflyRos.Daemon

import AcflyRos.Daemon.Offset
import AcflyRos.Daemon.Tracking

/-! # Steps of the system clock

The supervisor takes its time-outs from the node clock. A run is compared with the
same run on a clock that is never stepped: a step changes the offset between the
two, which goes unnoticed when no time-out refers to a recorded time.
-/

namespace AcflyRos.Daemon

open AcflyRos.Transition

namespace World.Alike

variable {offset : Int} {world other : World}

/-! ## The steps of the timer -/

theorem reapOne (h : world.Alike offset other) (child : Child) (status : WaitStatus) :
    (World.reapOne child status world).Alike offset (World.reapOne child status other) := by
  have hfind : other.processes.findIdx? (·.pid == child.pid) =
      world.processes.findIdx? (·.pid == child.pid) := by
    have hpids : other.processes.map (·.pid) = world.processes.map (·.pid) :=
      h.map_processes fun _ => rfl
    have hindex := congrArg (List.findIdx? (· == child.pid)) hpids
    simpa only [List.findIdx?_map, Function.comp_def] using hindex
  unfold World.reapOne
  rw [hfind]
  split
  next => exact h.forget child.pid
  next i _ =>
    apply h.onEntry
    intro mp mp' _ _ halike
    apply Alike.ite (by rw [halike.stopping])
    · -- A planned stop ends in a state in which no stamp is referred to.
      intro _
      refine Alike.note ?_ _ _
      apply (h.forget child.pid).update
      intro reaped reaped' _ _ hreaped
      apply ManagedProcess.Alike.of_settled (Or.inr (Or.inr rfl))
      · exact congrArg (fun rest : ManagedProcess =>
          { rest with
            pid := -1
            exitCode := status.exitCode
            exitReason := status.exitReason
            stopping := false
            state := .stopped }) hreaped.same
      · rintro ⟨hstopping | hodin, htype⟩
        · cases hstopping
        · exact hreaped.stop ⟨Or.inr hodin, htype⟩
    · -- A crash is stamped with the reading just taken, which is at the offset.
      intro _
      refine Alike.note ?_ _ _
      apply (h.interact.forget child.pid).update
      intro reaped reaped' _ _ hreaped
      exact {
        same := congrArg (fun rest : ManagedProcess =>
          { rest with
            pid := -1
            exitCode := status.exitCode
            exitReason := status.exitReason
            state := .restarting
            crashTime := ⟨0, .rosTime⟩ }) hreaped.same
        stop := hreaped.stop
        crash := fun _ => h.interact.clock
        start := by rintro ⟨hstate | hstate, _⟩ <;> cases hstate }

theorem reapLoop (h : world.Alike offset other) (fuel : Nat) :
    (World.reapLoop fuel world).Alike offset (World.reapLoop fuel other) := by
  induction fuel generalizing world other with
  | zero => exact h
  | succ fuel ih =>
      unfold World.reapLoop
      rw [h.beat]
      dsimp only
      have hwait : other.interact.waitpid world.beat.reaps =
          world.interact.waitpid world.beat.reaps := by
        rw [World.waitpid, World.waitpid, h.interact.children]
      rw [hwait]
      split
      next => exact h.interact
      next child status _ => exact ih (h.interact.reapOne child status)

theorem reapChildren (h : world.Alike offset other) :
    (World.reapChildren world).Alike offset (World.reapChildren other) := by
  unfold World.reapChildren
  rw [h.children]
  exact h.reapLoop _

theorem checkStopTimeouts (h : world.Alike offset other) :
    (World.checkStopTimeouts world).Alike offset (World.checkStopTimeouts other) := by
  have hread := h.interact
  unfold World.checkStopTimeouts
  dsimp only
  rw [hread.indices, hread.clock]
  apply hread.each
  intro i later later' hlater
  apply hlater.onEntry
  intro mp mp' _ _ halike
  apply Alike.ite (by rw [halike.stopping, halike.pid]) ?_ fun _ => hlater
  intro hdue
  rw [halike.sub?_stop hdue.1 rfl]
  split
  next => exact hlater.setMode .aborted
  next elapsed _ =>
    exact Alike.ite (by rw [halike.shutdownTimeoutSec]) (fun _ => hlater.forceKill i)
      fun _ => hlater

/-- The backoff grows after the start, so the start must already be recorded at the offset. -/
theorem restartEntry (h : world.Alike offset other) (i : Nat) :
    (World.restartEntry i world).Alike offset (World.restartEntry i other) := by
  have hcounted : (world.countRestart i).Alike offset (other.countRestart i) := by
    refine Alike.note ?_ _ _
    apply h.update
    intro mp mp' _ _ halike
    exact {
      same := congrArg (fun rest : ManagedProcess =>
        { rest with restartCount := rest.restartCount + 1 }) halike.same
      stop := halike.stop
      crash := halike.crash
      start := halike.start }
  obtain ⟨hstarted, hstamped⟩ := hcounted.startProcess i
  unfold World.restartEntry
  dsimp only
  rw [hstarted.config]
  apply hstarted.update
  intro mp mp' hmp hmp' halike
  obtain ⟨change, _, hstarts, hprocesses⟩ :=
    World.startProcess_processes i (world.countRestart i)
  have hstate : mp.state = .starting ∨ mp.state = .restarting := by
    rw [hprocesses] at hmp
    rcases Table.getElem?_modify_cases hmp with ⟨_, before, _, rfl⟩ | ⟨hij, _⟩
    · exact (hstarts before).imp_right And.left
    · exact absurd rfl hij
  exact {
    same := congrArg (fun rest : ManagedProcess => { rest with
      currentBackoffSec := min (rest.currentBackoffSec * 2)
        (World.startProcess i (world.countRestart i)).config.maxBackoffSec }) halike.same
    stop := halike.stop
    crash := halike.crash
    start := by
      rintro ⟨hstarting | hrunning, _⟩
      · exact hstamped mp mp' hmp hmp' hstarting
      · simp [show mp.state = .running from hrunning] at hstate }

theorem handleRestarts (h : world.Alike offset other) :
    (World.handleRestarts world).Alike offset (World.handleRestarts other) := by
  have hread := h.interact
  unfold World.handleRestarts
  dsimp only
  rw [hread.indices, hread.clock]
  apply hread.each
  intro i later later' hlater
  apply hlater.onEntry
  intro mp mp' _ _ halike
  apply Alike.ite (by rw [halike.state]) (fun _ => hlater)
  intro hstate
  apply Alike.ite (by rw [halike.autoRestart]) (fun _ => hlater)
  intro hauto
  have hcrash := halike.crash ⟨not_not.mp hstate, by simpa using hauto⟩
  rw [hcrash, Time.sub?_shift]
  split
  next => exact hlater.setMode .aborted
  next elapsed _ =>
    exact Alike.ite (by rw [halike.currentBackoffSec]) (fun _ => hlater.restartEntry i)
      fun _ => hlater

theorem markRunning (h : world.Alike offset other) :
    (World.markRunning world).Alike offset (World.markRunning other) := by
  unfold World.markRunning
  rw [h.indices]
  apply h.each
  intro i later later' hlater
  apply hlater.onEntry
  intro mp mp' hmp _ halike
  apply Alike.ite (by rw [halike.state]) (fun _ => hlater)
  intro hstate
  apply Alike.ite (by rw [halike.pid]) (fun _ => hlater)
  intro _
  apply Alike.ite (by rw [World.exists?, World.exists?, hlater.children, halike.pid]) ?_
    fun _ => hlater
  intro _
  apply hlater.update
  intro same same' hsame _ halike
  cases hmp.symm.trans hsame
  exact {
    same := congrArg (fun rest : ManagedProcess => { rest with state := .running }) halike.same
    stop := halike.stop
    crash := by
      rintro ⟨hcrashed, _⟩
      cases hcrashed
    start := fun htimed => halike.start ⟨Or.inl (not_not.mp hstate), htimed.2⟩ }

theorem resetBackoffs (h : world.Alike offset other) :
    (World.resetBackoffs world).Alike offset (World.resetBackoffs other) := by
  have hread := h.interact
  unfold World.resetBackoffs
  dsimp only
  rw [hread.indices, hread.clock]
  apply hread.each
  intro i later later' hlater
  apply hlater.onEntry
  intro mp mp' _ _ halike
  apply Alike.ite (by rw [halike.state]) (fun _ => hlater)
  intro hstate
  rw [hlater.config]
  apply Alike.ite (by rw [halike.currentBackoffSec]) (fun _ => hlater)
  intro hraised
  rw [halike.start ⟨Or.inr (not_not.mp hstate), Int.not_le.mp hraised⟩, Time.sub?_shift]
  split
  next => exact hlater.setMode .aborted
  next uptime _ =>
    apply Alike.ite Iff.rfl ?_ fun _ => hlater
    intro _
    refine Alike.note ?_ _ _
    apply hlater.update
    intro reset reset' _ _ hreset
    exact {
      same := congrArg (fun rest : ManagedProcess =>
        { rest with currentBackoffSec := later.config.initialBackoffSec }) hreset.same
      stop := hreset.stop
      crash := hreset.crash
      start := fun htimed => absurd htimed.2 (Int.lt_irrefl _) }

theorem checkStarted (h : world.Alike offset other) :
    (World.checkStarted world).Alike offset (World.checkStarted other) :=
  h.markRunning.andThen h.markRunning.resetBackoffs

/-- Giving up starts a stop whose time-out refers to the last request, if there was one. -/
theorem giveUp (h : world.Alike offset other) {i : Nat} {mp : ManagedProcess} (pid : Pid)
    (hmp : world.processes[i]? = some mp) (hname : mp.name = odin) :
    (World.giveUp i pid world).Alike offset (World.giveUp i pid other) := by
  have hstopping : (world.update i fun mp =>
      { mp with
        autoRestart := false
        stopping := true
        exitReason := "health_check_giveup:data_stall" }).Alike offset
        (other.update i fun mp =>
          { mp with
            autoRestart := false
            stopping := true
            exitReason := "health_check_giveup:data_stall" }) := by
    apply h.update
    intro same same' hsame _ halike
    cases hmp.symm.trans hsame
    exact {
      same := congrArg (fun rest : ManagedProcess =>
        { rest with
          autoRestart := false
          stopping := true
          exitReason := "health_check_giveup:data_stall" }) halike.same
      stop := fun htimed => halike.stop ⟨Or.inr hname, htimed.2⟩
      crash := by
        rintro ⟨_, hauto⟩
        cases hauto
      start := halike.start }
  have hnoted := hstopping.note (.gaveUp i) (.gaveUp i)
  unfold World.giveUp
  dsimp only
  rw [hnoted.serialOf]
  exact ((hnoted.record rfl).markKilled pid).alter
    (fun rest => { rest with odinHealthArmed := false }) (fun _ => rfl) fun _ => rfl

theorem healthKill (h : world.Alike offset other) (pid : Pid) :
    (World.healthKill pid world).Alike offset (World.healthKill pid other) := by
  have hcounted := h.alter
    (fun rest => { rest with odinHealthFailCount := rest.odinHealthFailCount + 1 })
    (fun _ => rfl) fun _ => rfl
  unfold World.healthKill
  dsimp only
  rw [hcounted.serialOf]
  exact ((hcounted.record rfl).markKilled pid).alter
    (fun rest => { rest with odinHealthArmed := false }) (fun _ => rfl) fun _ => rfl

theorem checkOdinHealth (h : world.Alike offset other) :
    (World.checkOdinHealth world).Alike offset (World.checkOdinHealth other) := by
  have harmed : other.odinHealthArmed = world.odinHealthArmed :=
    h.view World.odinHealthArmed fun _ => rfl
  have hread := h.interact
  have hlast : other.interact.odinLastMsgSteady = world.interact.odinLastMsgSteady :=
    hread.view World.odinLastMsgSteady fun _ => rfl
  have hrunning : other.interact.odinRunningSteady = world.interact.odinRunningSteady :=
    hread.view World.odinRunningSteady fun _ => rfl
  have hcount : other.interact.odinHealthFailCount = world.interact.odinHealthFailCount :=
    hread.view World.odinHealthFailCount fun _ => rfl
  unfold World.checkOdinHealth
  rw [h.findProcess]
  split
  next => exact h
  next i hodin =>
    apply h.onEntry
    intro mp mp' hmp _ halike
    apply Alike.ite (by rw [halike.state]) (fun _ => h)
    intro hstate
    apply Alike.ite (by rw [harmed]) (fun _ => h)
    intro _
    apply Alike.ite (by rw [halike.pid]) (fun _ => h)
    intro _
    rw [halike.pid]
    apply Alike.ite (by rw [hread.steady, hread.config, hlast])
    · intro _
      apply Alike.ite (by rw [hread.steady, hread.config, hrunning, hcount]) ?_ fun _ => hread
      intro _
      exact hread.alter (fun rest => { rest with odinHealthFailCount := 0 }) (fun _ => rfl)
        fun _ => rfl
    · intro _
      apply Alike.ite (by rw [hread.config, hcount])
      · intro _
        obtain ⟨named, hnamed, hname⟩ := World.findProcess_some hodin
        exact hread.giveUp mp.pid hnamed hname
      · intro _
        exact hread.healthKill mp.pid

theorem dependenciesRunning (h : world.Alike offset other) {mp mp' : ManagedProcess}
    (hdependencies : mp'.dependencies = mp.dependencies) :
    other.dependenciesRunning mp' = world.dependenciesRunning mp := by
  have hstates : other.runStates = world.runStates := h.map_processes fun _ => rfl
  rw [World.dependenciesRunning_eq, World.dependenciesRunning_eq, hstates, hdependencies]

theorem handlePending (h : world.Alike offset other) :
    (World.handlePending world).Alike offset (World.handlePending other) := by
  unfold World.handlePending
  rw [h.indices]
  apply h.each
  intro i later later' hlater
  apply hlater.onEntry
  intro mp mp' _ _ halike
  apply Alike.ite (by rw [halike.state]) (fun _ => hlater)
  intro _
  apply Alike.ite (by rw [hlater.dependenciesRunning halike.dependencies]) (fun _ => hlater)
  intro _
  apply Alike.ite (by rw [halike.waitForTopics]) (fun _ => (hlater.startProcess i).1)
  intro _
  apply Alike.ite (by rw [hlater.beat, World.topicsReady, World.topicsReady, halike.waitForTopics])
  · exact fun _ => (hlater.interact.startProcess i).1
  · exact fun _ => hlater.interact

/-! ## Status messages -/

/-- Whether the status of an entry exists does not depend on the readings. -/
theorem processStatus {mp mp' : ManagedProcess} (hsame : mp'.untimed = mp.untimed)
    (world other : World) :
    (World.processStatus mp' other).map ProcessStatus.untimed =
      (World.processStatus mp world).map ProcessStatus.untimed := by
  have hview : ∀ {α : Type} (view : ManagedProcess → α),
      (∀ mp, view mp.untimed = view mp) → view mp' = view mp :=
    ManagedProcess.view_of_untimed hsame
  have hdefined : (other.clock.sub? mp'.startTime).isSome =
      (world.clock.sub? mp.startTime).isSome :=
    Time.isSome_sub? rfl (hview (·.startTime.untimed) fun _ => rfl)
  unfold World.processStatus
  rw [hview (·.name) fun _ => rfl, hview (·.state) fun _ => rfl, hview (·.pid) fun _ => rfl,
    hview (·.restartCount) fun _ => rfl, hview (·.exitCode) fun _ => rfl,
    hview (·.exitReason) fun _ => rfl]
  dsimp only
  split
  · -- Without the uptime only the existence of the difference matters.
    generalize other.clock.sub? mp'.startTime = uptime' at hdefined ⊢
    generalize world.clock.sub? mp.startTime = uptime at hdefined ⊢
    cases uptime <;> cases uptime'
    · rfl
    · cases hdefined
    · cases hdefined
    · rfl
  · rfl

theorem collectStatuses (h : world.Alike offset other) {entries entries' : List ManagedProcess}
    (hentries : entries'.map ManagedProcess.untimed = entries.map ManagedProcess.untimed)
    {done done' : List ProcessStatus}
    (hdone : done'.map ProcessStatus.untimed = done.map ProcessStatus.untimed) :
    (World.collectStatuses entries done world).2.Alike offset
        (World.collectStatuses entries' done' other).2 ∧
      (World.collectStatuses entries' done' other).1.map (List.map ProcessStatus.untimed) =
        (World.collectStatuses entries done world).1.map (List.map ProcessStatus.untimed) := by
  induction entries generalizing entries' done done' world other with
  | nil =>
      obtain rfl : entries' = [] := by simpa using hentries
      exact ⟨h, congrArg some hdone⟩
  | cons mp rest ih =>
      cases entries' with
      | nil => cases hentries
      | cons mp' rest' =>
          obtain ⟨hsame, hrest⟩ := List.cons.inj hentries
          have hstate : mp'.state = mp.state :=
            ManagedProcess.view_of_untimed hsame ManagedProcess.state fun _ => rfl
          have hread : World.Alike offset
              (if mp.state = .running then world.interact else world)
              (if mp'.state = .running then other.interact else other) :=
            Alike.ite (by rw [hstate]) (fun _ => h.interact) fun _ => h
          have hstatus := processStatus hsame
            (if mp.state = .running then world.interact else world)
            (if mp'.state = .running then other.interact else other)
          unfold World.collectStatuses
          dsimp only
          generalize World.processStatus mp _ = status at hstatus ⊢
          generalize World.processStatus mp' _ = status' at hstatus ⊢
          cases status with
          | none =>
              obtain rfl : status' = none := by simpa using hstatus
              exact ⟨hread.setMode .aborted, rfl⟩
          | some status =>
              obtain ⟨status', rfl, hsame⟩ : ∃ found, status' = some found ∧
                  found.untimed = status.untimed := by simpa using hstatus
              apply ih hread hrest
              simp only [List.map_append, hdone, List.map_cons, hsame, List.map_nil]

/-- What is done with the statuses, if collecting them does not throw. -/
theorem withStatuses (h : world.Alike offset other) {entries entries' : List ManagedProcess}
    (hentries : entries'.map ManagedProcess.untimed = entries.map ManagedProcess.untimed)
    {done done' : List ProcessStatus}
    (hdone : done'.map ProcessStatus.untimed = done.map ProcessStatus.untimed)
    {use : List ProcessStatus → World → World}
    (huse : ∀ {statuses statuses' : List ProcessStatus} {left right : World},
      left.Alike offset right →
      statuses'.map ProcessStatus.untimed = statuses.map ProcessStatus.untimed →
        (use statuses left).Alike offset (use statuses' right)) :
    (match World.collectStatuses entries done world with
      | (none, world) => world
      | (some statuses, world) => use statuses world).Alike offset
      (match World.collectStatuses entries' done' other with
        | (none, world) => world
        | (some statuses, world) => use statuses world) := by
  obtain ⟨hcollected, hstatuses⟩ := h.collectStatuses hentries hdone
  generalize World.collectStatuses entries done world = left at hcollected hstatuses ⊢
  generalize World.collectStatuses entries' done' other = right at hcollected hstatuses ⊢
  obtain ⟨statuses, left⟩ := left
  obtain ⟨statuses', right⟩ := right
  cases statuses with
  | none =>
      obtain rfl : statuses' = none := by simpa using hstatuses
      exact hcollected
  | some statuses =>
      obtain ⟨statuses', rfl, hsame⟩ : ∃ found, statuses' = some found ∧
          found.map ProcessStatus.untimed = statuses.map ProcessStatus.untimed := by
        simpa using hstatuses
      exact huse hcollected hsame

theorem supervisorStateStr (h : world.Alike offset other) :
    other.supervisorStateStr = world.supervisorStateStr := by
  have hstates : other.processes.map (·.state) = world.processes.map (·.state) :=
    h.map_processes fun _ => rfl
  have hall : ∀ test : ProcessState → Bool,
      (other.processes.all fun mp => test mp.state) =
        world.processes.all fun mp => test mp.state := by
    intro test
    simpa only [List.all_map, Function.comp_def] using congrArg (List.all · test) hstates
  have hany : ∀ test : ProcessState → Bool,
      (other.processes.any fun mp => test mp.state) =
        world.processes.any fun mp => test mp.state := by
    intro test
    simpa only [List.any_map, Function.comp_def] using congrArg (List.any · test) hstates
  have hshutting : other.shuttingDown = world.shuttingDown :=
    h.view World.shuttingDown fun _ => rfl
  unfold World.supervisorStateStr
  rw [hall fun state => state == .running || state == .stopped,
    hany fun state => state == .pending || state == .starting, hany (· == .stopping), hshutting]

theorem publishStatus (h : world.Alike offset other) :
    (World.publishStatus world).Alike offset (World.publishStatus other) := by
  have hread := h.interact
  have hdefined : (other.interact.clock.sub? other.interact.startTime).isSome =
      (world.interact.clock.sub? world.interact.startTime).isSome :=
    Time.isSome_sub? rfl (hread.view (·.startTime.untimed) fun _ => rfl)
  unfold World.publishStatus
  dsimp only
  rw [hread.supervisorStateStr, hread.config]
  generalize other.interact.clock.sub? other.interact.startTime = uptime' at hdefined ⊢
  generalize world.interact.clock.sub? world.interact.startTime = uptime at hdefined ⊢
  cases uptime with
  | none =>
      obtain rfl : uptime' = none := by simpa using hdefined
      exact hread.setMode .aborted
  | some uptime =>
      obtain ⟨uptime', rfl⟩ := Option.isSome_iff_exists.mp hdefined
      have hpublish : ∀ own own' : ProcessStatus, own'.untimed = own.untimed → World.Alike offset
          (match World.collectStatuses world.interact.processes [own] world.interact with
            | (none, world) => world
            | (some statuses, world) => world.record (.published statuses))
          (match World.collectStatuses other.interact.processes [own'] other.interact with
            | (none, world) => world
            | (some statuses, world) => world.record (.published statuses)) := by
        intro own own' hown
        have hdone : [own'].map ProcessStatus.untimed = [own].map ProcessStatus.untimed :=
          congrArg (fun status => [status]) hown
        exact hread.withStatuses hread.tables hdone fun hcollected hsame =>
          hcollected.record (congrArg Event.published hsame)
      exact hpublish _ _ rfl

/-! ## Shutting everything down -/

theorem allStopped (h : world.Alike offset other) : other.allStopped = world.allStopped := by
  have hstates : other.processes.map (·.state) = world.processes.map (·.state) :=
    h.map_processes fun _ => rfl
  have hall := congrArg (List.all · fun state => state == .stopped || state == .pending) hstates
  simpa only [List.all_map, Function.comp_def, World.allStopped] using hall

theorem shutdownPoll (h : world.Alike offset other) (fuel : Nat) :
    (World.shutdownPoll fuel world).Alike offset (World.shutdownPoll fuel other) := by
  induction fuel generalizing world other with
  | zero => exact h.setMode .blocked
  | succ fuel ih =>
      have hread := h.interact
      unfold World.shutdownPoll
      dsimp only
      rw [hread.deadline]
      cases world.interact.deadline with
      | none => exact hread
      | some deadline =>
          apply Alike.ite ?_ ?_ fun _ => hread
          · rw [hread.ros]
            exact Int.add_lt_add_iff_right offset
          · intro _
            have hpolled := hread.reapChildren.andThen hread.reapChildren.checkStopTimeouts
            exact hpolled.andThen (Alike.ite (by rw [hpolled.allStopped]) (fun _ => hpolled)
              fun _ => ih hpolled.interact)

theorem killRemaining (h : world.Alike offset other) :
    (World.killRemaining world).Alike offset (World.killRemaining other) := by
  unfold World.killRemaining
  rw [h.indices]
  apply h.each
  intro i later later' hlater
  apply hlater.onEntry
  intro mp mp' _ _ halike
  exact Alike.ite (by rw [halike.state]) (fun _ => hlater.forceKill i) fun _ => hlater

theorem requestStopAll (h : world.Alike offset other) :
    (World.requestStopAll world).Alike offset (World.requestStopAll other) := by
  unfold World.requestStopAll
  rw [h.indices]
  apply h.each
  intro i later later' hlater
  apply hlater.onEntry
  intro mp mp' _ _ halike
  exact Alike.ite (by rw [halike.state]) (fun _ => hlater.requestStop i) fun _ => hlater

theorem setDeadline (h : world.Alike offset other) :
    ({ world with
      deadline := some ⟨world.ros + world.config.gracefulShutdownTimeout, .rosTime⟩ } :
        World).Alike offset
      { other with
        deadline := some ⟨other.ros + other.config.gracefulShutdownTimeout, .rosTime⟩ } :=
  { h with
    deadline := by
      simp only [h.ros, h.config, Option.map_some, Time.shift]
      rw [Int.add_right_comm] }

theorem clearDeadline (h : world.Alike offset other) :
    ({ world with deadline := none } : World).Alike offset { other with deadline := none } :=
  { h with deadline := rfl }

theorem shutdownAll (h : world.Alike offset other) :
    (World.shutdownAll world).Alike offset (World.shutdownAll other) := by
  unfold World.shutdownAll
  apply Alike.ite (by rw [h.view World.shuttingDown fun _ => rfl]) (fun _ => h)
  intro _
  have hflagged := h.alter (fun rest => { rest with shuttingDown := true }) (fun _ => rfl)
    fun _ => rfl
  have hasked := hflagged.requestStopAll.interact
  dsimp only
  generalize World.interact (World.requestStopAll _) = asked at hasked ⊢
  generalize World.interact (World.requestStopAll _) = asked' at hasked ⊢
  have hlength : asked'.script.length = asked.script.length := by rw [hasked.script]
  rw [hlength]
  have hpolled := hasked.setDeadline.shutdownPoll (asked.script.length + 1)
  have hkilled := hpolled.andThen hpolled.killRemaining
  apply hkilled.andThen
  exact hkilled.clearDeadline

/-! ## Callbacks -/

theorem onTimer (h : world.Alike offset other) :
    (World.onTimer world).Alike offset (World.onTimer other) := by
  unfold World.onTimer
  apply Alike.ite (by rw [h.view World.signalReceived fun _ => rfl])
  · intro _
    exact h.shutdownAll.andThen (h.shutdownAll.setMode .shutDown)
  · intro _
    have hreaped := h.reapChildren
    have hstopped := hreaped.andThen hreaped.checkStopTimeouts
    have hchecked := hstopped.andThen hstopped.checkStarted
    have hhealthy := hchecked.andThen hchecked.checkOdinHealth
    have hrestarted := hhealthy.andThen hhealthy.handleRestarts
    exact hrestarted.andThen
      (hrestarted.handlePending.andThen hrestarted.handlePending.publishStatus)

theorem permitRestart (h : world.Alike offset other) (i : Nat)
    (hpending : ∀ mp, world.processes[i]? = some mp → mp.state = .pending) :
    (world.update i fun mp => { mp with autoRestart := true }).Alike offset
      (other.update i fun mp => { mp with autoRestart := true }) := by
  apply h.update
  intro mp mp' hmp _ halike
  have hstate : ({ mp with autoRestart := true } : ManagedProcess).state = .pending :=
    hpending mp hmp
  apply ManagedProcess.Alike.of_settled (Or.inl hstate)
  · exact congrArg (fun rest : ManagedProcess => { rest with autoRestart := true }) halike.same
  · exact halike.stop

theorem resetForStart (h : world.Alike offset other) (i : Nat) (name : String) :
    (World.resetForStart i name world).Alike offset (World.resetForStart i name other) := by
  have hreset : (world.update i fun mp =>
      { mp with
        state := .pending
        currentBackoffSec := world.config.initialBackoffSec }).Alike offset
        (other.update i fun mp =>
          { mp with state := .pending, currentBackoffSec := world.config.initialBackoffSec }) := by
    apply h.update
    intro mp mp' _ _ halike
    apply ManagedProcess.Alike.of_settled (Or.inl rfl)
    · exact congrArg (fun rest : ManagedProcess =>
        { rest with
          state := .pending
          currentBackoffSec := world.config.initialBackoffSec }) halike.same
    · exact halike.stop
  have hnoted := hreset.note (.manualReset i) (.manualReset i)
  unfold World.resetForStart
  rw [h.config]
  apply Alike.ite Iff.rfl ?_ fun _ => hnoted
  intro _
  have hforgiven := hnoted.alter (fun rest => { rest with odinHealthFailCount := 0 })
    (fun _ => rfl) fun _ => rfl
  apply hforgiven.permitRestart
  intro mp hmp
  rcases Table.getElem?_modify_cases hmp with ⟨_, _, _, rfl⟩ | ⟨hij, _⟩
  · rfl
  · exact absurd rfl hij

theorem respondStarted (h : world.Alike offset other) (i : Nat) (success failure : String) :
    (World.respondStarted i success failure world).Alike offset
      (World.respondStarted i success failure other) := by
  apply h.onEntry
  intro mp mp' _ _ halike
  exact Alike.ite (by rw [halike.state]) (fun _ => h.respond true success)
    fun _ => h.respond false failure

theorem handleStart (h : world.Alike offset other) (name : String) :
    (World.handleStart name world).Alike offset (World.handleStart name other) := by
  unfold World.handleStart
  apply Alike.ite Iff.rfl (fun _ => h.respond _ _)
  intro _
  rw [h.findProcess]
  split
  next => exact h.respond _ _
  next i _ =>
    apply h.onEntry
    intro mp mp' _ _ halike
    apply Alike.ite (by rw [halike.state]) (fun _ => h.respond _ _)
    intro _
    have hstarted := ((h.resetForStart i name).startProcess i).1
    exact hstarted.andThen (hstarted.respondStarted i _ _)

theorem handleStop (h : world.Alike offset other) (name : String) :
    (World.handleStop name world).Alike offset (World.handleStop name other) := by
  unfold World.handleStop
  apply Alike.ite Iff.rfl
  · intro _
    apply h.shutdownAll.andThen
    exact (h.shutdownAll.alter (fun rest => { rest with shuttingDown := false }) (fun _ => rfl)
      fun _ => rfl).respond _ _
  · intro _
    rw [h.findProcess]
    split
    next => exact h.respond _ _
    next i _ =>
      apply h.onEntry
      intro mp mp' _ _ halike
      exact Alike.ite (by rw [halike.state]) (fun _ => h.respond _ _)
        fun _ => (h.requestStop i).respond _ _

theorem waitStopped (h : world.Alike offset other) (i fuel : Nat) :
    (World.waitStopped i fuel world).Alike offset (World.waitStopped i fuel other) := by
  induction fuel generalizing world other with
  | zero => exact h.setMode .blocked
  | succ fuel ih =>
      unfold World.waitStopped
      apply h.onEntry
      intro mp mp' _ _ halike
      apply Alike.ite (by rw [halike.state]) ?_ fun _ => h
      intro _
      have hreaped := h.interact.reapChildren
      have hpolled := hreaped.andThen hreaped.checkStopTimeouts
      exact hpolled.andThen (ih hpolled)

theorem resetEntries (h : world.Alike offset other) :
    (World.resetEntries world).Alike offset (World.resetEntries other) :=
  { h with
    rest := congrArg (fun rest : World => { rest with odinHealthFailCount := 0 }) h.rest
    entries := by
      intro i
      simp only [World.resetEntries, World.note, List.getElem?_map, h.config]
      rcases h.entry_cases i with ⟨hmp, hmp'⟩ | ⟨mp, mp', hmp, hmp', halike⟩
      · rw [hmp, hmp']
        exact Option.Rel.none
      · rw [hmp, hmp']
        apply Option.Rel.some
        apply ManagedProcess.Alike.of_settled (Or.inl rfl)
        · exact congrArg (fun rest : ManagedProcess =>
            { rest with
              state := .pending
              currentBackoffSec := world.config.initialBackoffSec }) halike.same
        · exact halike.stop }

theorem resetAll (h : world.Alike offset other) :
    (World.resetAll world).Alike offset (World.resetAll other) := by
  have hreset := h.resetEntries
  unfold World.resetAll
  dsimp only
  rw [hreset.findProcess]
  split
  next => exact hreset
  next i _ =>
    apply hreset.permitRestart
    intro mp hmp
    simp only [World.resetEntries, World.note, List.getElem?_map, Option.map_eq_some_iff] at hmp
    obtain ⟨_, _, rfl⟩ := hmp
    rfl

theorem handleRestart (h : world.Alike offset other) (name : String) :
    (World.handleRestart name world).Alike offset (World.handleRestart name other) := by
  unfold World.handleRestart
  apply Alike.ite Iff.rfl
  · intro _
    apply h.shutdownAll.andThen
    exact (h.shutdownAll.alter (fun rest => { rest with shuttingDown := false }) (fun _ => rfl)
      fun _ => rfl).resetAll.respond _ _
  · intro _
    rw [h.findProcess]
    split
    next => exact h.respond _ _
    next i _ =>
      apply h.onEntry
      intro mp mp' _ _ halike
      have hasked : World.Alike offset
          (if mp.state = .running ∨ mp.state = .starting then World.requestStop i world else world)
          (if mp'.state = .running ∨ mp'.state = .starting then World.requestStop i other
            else other) :=
        Alike.ite (by rw [halike.state]) (fun _ => h.requestStop i) fun _ => h
      dsimp only
      rw [hasked.script]
      generalize (if mp.state = .running ∨ mp.state = .starting then World.requestStop i world
        else world) = asked at hasked ⊢
      have hwaited := hasked.waitStopped i (asked.script.length + 1)
      have hstarted := ((hwaited.resetForStart i name).startProcess i).1
      exact hwaited.andThen (hstarted.andThen (hstarted.respondStarted i _ _))

theorem handleShutdown (h : world.Alike offset other) :
    (World.handleShutdown world).Alike offset (World.handleShutdown other) :=
  (h.respond true "Shutting down supervisor and all processes").alter
    (fun rest => { rest with signalReceived := true }) (fun _ => rfl) fun _ => rfl

theorem respondStatuses (h : world.Alike offset other) {entries entries' : List ManagedProcess}
    (hentries : entries'.map ManagedProcess.untimed = entries.map ManagedProcess.untimed)
    (message : String) :
    (match World.collectStatuses entries [] world with
      | (none, world) => world
      | (some statuses, world) =>
          { world with response := some ⟨true, message, statuses⟩ }).Alike offset
      (match World.collectStatuses entries' [] other with
        | (none, world) => world
        | (some statuses, world) =>
            { world with response := some ⟨true, message, statuses⟩ }) := by
  have hnone : ([] : List ProcessStatus).map ProcessStatus.untimed =
      ([] : List ProcessStatus).map ProcessStatus.untimed := rfl
  exact h.withStatuses hentries hnone fun hcollected _ =>
    { hcollected with rest := hcollected.rest }

theorem handleGetStatus (h : world.Alike offset other) (name : String) :
    (World.handleGetStatus name world).Alike offset (World.handleGetStatus name other) := by
  unfold World.handleGetStatus
  apply Alike.ite Iff.rfl (fun _ => h.respondStatuses h.tables _)
  intro _
  rw [h.findProcess]
  split
  next => exact h.respond _ _
  next i _ =>
    apply h.onEntry
    intro mp mp' _ _ halike
    have hsame : [mp'].map ManagedProcess.untimed = [mp].map ManagedProcess.untimed :=
      congrArg (fun mp => [mp]) halike.same
    exact h.respondStatuses hsame ""

theorem deliver (h : world.Alike offset other) :
    (Daemon.deliver world).Alike offset (Daemon.deliver other) := by
  unfold Daemon.deliver
  rw [h.view World.odometry fun _ => rfl]
  split
  next => exact h
  next serial rest _ =>
    have htaken := h.alter (fun state => { state with odometry := rest }) (fun _ => rfl)
      fun _ => rfl
    have harmed := htaken.interact.alter
      (fun state => { state with odinLastMsgSteady := state.steady, odinHealthArmed := true })
      (fun _ => rfl) fun _ => rfl
    exact harmed.record rfl

theorem dispatch (h : world.Alike offset other) (request : Request) :
    (Daemon.dispatch request world).Alike offset (Daemon.dispatch request other) := by
  cases request with
  | timer => exact h.onTimer
  | odometry => exact h.deliver
  | start name => exact h.handleStart name
  | stop name => exact h.handleStop name
  | restart name => exact h.handleRestart name
  | shutdown => exact h.handleShutdown
  | getStatus name => exact h.handleGetStatus name
  | signal =>
      exact h.alter (fun rest => { rest with signalReceived := true }) (fun _ => rfl)
        fun _ => rfl
  | idle => exact h.interact

end World.Alike

/-! ## Runs -/

/-- What a run does and where it has come to, apart from the time. -/
def World.conduct (world : World) : List Event × List (String × ProcessState × Pid) × Mode :=
  (world.log.map Event.untimed, world.processes.map fun mp => (mp.name, mp.state, mp.pid),
    world.mode)

/-- The same surroundings with a system clock that is not stepped. -/
def Beat.unstepped (beat : Beat) : Beat := { beat with jump := 0 }

def Label.unstepped (label : Label) : Label :=
  { label with script := label.script.map Beat.unstepped }

/-- No time-out is running. -/
def World.Quiet (world : World) : Prop :=
  world.deadline = none ∧ ∀ mp ∈ world.processes, ¬ mp.Timed world.config.initialBackoffSec

instance (world : World) : Decidable world.Quiet := inferInstanceAs (Decidable (_ ∧ _))

/-- The two labels differ at most in the steps of the system clock, and only if these
come between callbacks while no time-out is running. -/
def ClocksAgree (world : World) (labels : Label × Label) : Prop :=
  labels.2 = labels.1 ∨
    labels.1.request = .idle ∧ labels.2.unstepped = labels.1.unstepped ∧ world.Quiet

instance (world : World) (labels : Label × Label) : Decidable (ClocksAgree world labels) :=
  inferInstanceAs (Decidable (_ ∨ _ ∧ _ ∧ _))

/-- The state between two callbacks. -/
def World.rested (world : World) : World := { world with script := [], response := none }

/-- Between callbacks, two runs agree up to some offset. -/
def Follows (world other : World) : Prop :=
  ∃ offset, world.rested.Alike offset other.rested

theorem Follows.of_alike {offset : Int} {world other : World}
    (h : world.Alike offset other) : Follows world other :=
  ⟨offset, { h with script := rfl, rest := h.rest }⟩

theorem Follows.conduct {world other : World} (hfollows : Follows world other) :
    other.conduct = world.conduct := by
  obtain ⟨offset, h⟩ := hfollows
  have hlog : other.log.map Event.untimed = world.log.map Event.untimed := h.log
  have hentries : other.processes.map (fun mp => (mp.name, mp.state, mp.pid)) =
      world.processes.map fun mp => (mp.name, mp.state, mp.pid) := h.map_processes fun _ => rfl
  have hmode : other.mode = world.mode := h.mode
  rw [World.conduct, World.conduct, hlog, hentries, hmode]

/-- While no time-out is running, a different step of the clock is a different offset. -/
theorem World.Alike.interact_quiet {offset : Int} {world other : World}
    (h : world.rested.Alike offset other.rested) (hquiet : world.Quiet)
    (hbeat : other.beat.unstepped = world.beat.unstepped) :
    Follows world.interact other.interact := by
  have hview : ∀ {α : Type} (view : Beat → α), (∀ beat, view beat.unstepped = view beat) →
      view other.beat = view world.beat := by
    intro α view hview
    rw [← hview other.beat, hbeat, hview]
  refine ⟨offset + (other.beat.jump - world.beat.jump), ?_, rfl, ?_, ?_, ?_⟩
  · have hrest := congrArg (fun rest : World =>
      { rest with
        steady := rest.steady + world.beat.elapsed
        children := rest.children.map (Child.pass world.beat)
        odometry := rest.odometry ++ world.beat.published.filter rest.publishes }) h.rest
    have hpass : Child.pass other.beat = Child.pass world.beat :=
      hview (Child.pass ·) fun _ => rfl
    simp only [World.interact, hpass, hview (·.elapsed) fun _ => rfl,
      hview (·.published) fun _ => rfl]
    exact hrest
  · have hros : other.ros = world.ros + offset := h.ros
    simp only [World.interact, World.rested, hros, hview (·.elapsed) fun _ => rfl]
    omega
  · have hdeadline : other.deadline = world.deadline.map (Time.shift offset) := h.deadline
    rw [hquiet.1, Option.map_none] at hdeadline
    have hnone : world.interact.rested.deadline = none := hquiet.1
    rw [hnone]
    exact hdeadline
  · intro i
    rcases h.entry_cases i with ⟨hmp, hmp'⟩ | ⟨mp, mp', hmp, hmp', halike⟩
    · rw [show world.interact.rested.processes[i]? = none from hmp,
        show other.interact.rested.processes[i]? = none from hmp']
      exact Option.Rel.none
    · rw [show world.interact.rested.processes[i]? = some mp from hmp,
        show other.interact.rested.processes[i]? = some mp' from hmp']
      have huntimed := hquiet.2 mp (List.mem_of_getElem? hmp)
      exact Option.Rel.some {
        same := halike.same
        stop := fun htimed => absurd (Or.inl htimed) huntimed
        crash := fun htimed => absurd (Or.inr (Or.inl htimed)) huntimed
        start := fun htimed => absurd (Or.inr (Or.inr htimed)) huntimed }

theorem step_follows {world other : World} {labels : Label × Label}
    (hfollows : Follows world other) (hagree : ClocksAgree world labels) :
    Follows (step world labels.1) (step other labels.2) := by
  obtain ⟨offset, h⟩ := hfollows
  have hmode : other.mode = world.mode := h.mode
  by_cases hup : world.mode = .up
  · rw [step, if_pos hup, step, if_pos (hmode.trans hup)]
    rcases hagree with hsame | ⟨hidle, hsame, hquiet⟩
    · rw [hsame]
      have hentered : (world.entered labels.1).Alike offset (other.entered labels.1) :=
        { h with script := rfl, rest := h.rest }
      exact Follows.of_alike (hentered.dispatch labels.1.request)
    · have hrequest : labels.2.request = labels.1.request :=
        show labels.2.unstepped.request = labels.1.unstepped.request by rw [hsame]
      have hscript : labels.2.script.map Beat.unstepped = labels.1.script.map Beat.unstepped :=
        show labels.2.unstepped.script = labels.1.unstepped.script by rw [hsame]
      have hbeat : (other.entered labels.2).beat.unstepped =
          (world.entered labels.1).beat.unstepped := by
        have hhead : (labels.2.script.map Beat.unstepped).headD (Beat.unstepped {}) =
            (labels.1.script.map Beat.unstepped).headD (Beat.unstepped {}) := by rw [hscript]
        rw [List.headD_map, List.headD_map] at hhead
        exact hhead
      have hentered : (world.entered labels.1).rested.Alike offset
          (other.entered labels.2).rested := { h with script := rfl, rest := h.rest }
      have hquiet' : (world.entered labels.1).Quiet := hquiet
      rw [hrequest, hidle]
      exact hentered.interact_quiet hquiet' hbeat
  · rw [step, if_neg hup, step, if_neg fun hup' => hup (hmode.symm.trans hup')]
    exact ⟨offset, h⟩

theorem initial_follows (config : Config) (nodes : List ProcessNode) (ros ros' steady : Int) :
    Follows (initial config nodes ros steady) (initial config nodes ros' steady) := by
  refine ⟨ros' - ros, rfl, rfl, ?_, rfl, ?_⟩
  · show ros' = ros + (ros' - ros)
    omega
  · intro i
    simp only [World.rested, initial, List.getElem?_map]
    cases nodes[i]? with
    | none => exact Option.Rel.none
    | some node =>
        apply Option.Rel.some
        apply ManagedProcess.Alike.of_settled (Or.inl rfl) rfl
        rintro ⟨_, htype⟩
        cases htype

/-- Two runs that differ in the system clock alone do the same, if their clocks are
stepped differently only between callbacks while no time-out is running. -/
theorem run_clockIndependent (config : Config) (nodes : List ProcessNode)
    (ros ros' steady : Int) (labels : List (Label × Label))
    (hlabels : EveryStep (fun world labels => step world labels.1) ClocksAgree
      (initial config nodes ros steady) labels) :
    (run step (initial config nodes ros' steady) (labels.map Prod.snd)).conduct =
      (run step (initial config nodes ros steady) (labels.map Prod.fst)).conduct := by
  apply Follows.conduct
  rw [run_map]
  exact run_simulates _ step Prod.snd Follows (fun _ _ _ => step_follows)
    (initial_follows config nodes ros ros' steady) hlabels

/-- The entry is asked to stop, and the next tick comes 0.2 seconds later. -/
def stoppingRun (jump : Int) : List Label :=
  [forkingTick 100, ⟨.timer, []⟩, ⟨.stop "mavros", []⟩,
    ⟨.timer, [{ elapsed := 200000000, jump }]⟩]

set_option maxRecDepth 4000 in
/-- A step by eleven seconds makes SIGKILL follow SIGINT at once. -/
theorem not_clockIndependent_stoppingRun :
    ¬ ∀ (config : Config) (nodes : List ProcessNode) (ros ros' steady : Int)
        (labels labels' : List Label), labels'.map Label.unstepped = labels.map Label.unstepped →
      (run step (initial config nodes ros' steady) labels').conduct =
        (run step (initial config nodes ros steady) labels).conduct := by
  intro hall
  have hsame := hall {} [mavros] 0 0 0 (stoppingRun 0) (stoppingRun 11000000000) rfl
  exact absurd hsame (by decide)

/-- The clocks of two runs are stepped apart while the child is RUNNING, and step together
while it is being stopped. -/
def steppedPair : List (Label × Label) :=
  [(forkingTick 100, forkingTick 100), (⟨.timer, []⟩, ⟨.timer, []⟩),
    (⟨.idle, [{ jump := -5000000000 }]⟩, ⟨.idle, [{ jump := 3600000000000 }]⟩),
    (⟨.stop "mavros", []⟩, ⟨.stop "mavros", []⟩),
    (⟨.timer, [{ elapsed := 200000000, jump := 7 }]⟩,
      ⟨.timer, [{ elapsed := 200000000, jump := 7 }]⟩)]

set_option maxRecDepth 4000 in
theorem clockIndependent_steppedPair :
    (run step (initial {} [mavros] 86400000000000 0) (steppedPair.map Prod.snd)).conduct =
      (run step (initial {} [mavros] 0 0) (steppedPair.map Prod.fst)).conduct := by
  apply run_clockIndependent
  exact ⟨by decide, by decide, by decide, by decide, by decide, trivial⟩

end AcflyRos.Daemon

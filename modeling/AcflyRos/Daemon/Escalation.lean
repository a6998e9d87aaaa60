import AcflyRos.Foundation.History
import AcflyRos.Daemon.Tracking

/-! # SIGKILL follows SIGINT

The stop flag and the time of the stop request live in the entry, not with the
child. Two callbacks let them get out of step: a start request that displaces a
stopping child hands the request to the new child, and the give-up branch of the
health check sets the flag without a request. In runs without either, every
`force_kill` follows a request to the same child by at least the shorter of the
two timeouts.
-/

namespace AcflyRos.Daemon

open AcflyRos.Transition AcflyRos.Table AcflyRos.History

/-- A `force_kill` was preceded by SIGINT to the same child. -/
def KillRule (graceful : Int) : Event → List Event → Prop
  | .forceKilled pid child shutdownTimeoutSec time, earlier =>
      ∃ serial requested, child = some serial ∧ .stopRequested pid child requested ∈ earlier ∧
        min shutdownTimeoutSec graceful ≤ time - requested
  | _, _ => True

/-- The entry's stop request was made, on the node clock, to the child it has. -/
def World.AskedOf (world : World) (mp : ManagedProcess) : Prop :=
  mp.state = .stopping ∧ ∃ requested serial, mp.stopRequestTime = ⟨requested, .rosTime⟩ ∧
    requested ≤ world.ros ∧ world.serialOf mp.pid = some serial ∧
    .stopRequested mp.pid (some serial) requested ∈ world.log ∧
    ∀ deadline, world.deadline = some deadline →
      requested + world.config.gracefulShutdownTimeout ≤ deadline.nanoseconds

/-- The clock does not run backwards. -/
def Beat.Monotone (beat : Beat) : Prop := 0 ≤ beat.elapsed + beat.jump

instance (beat : Beat) : Decidable beat.Monotone := inferInstanceAs (Decidable (_ ≤ _))

namespace World

variable {world next : World} {mp : ManagedProcess}

theorem ros_le_interact (hscript : ∀ beat ∈ world.script, beat.Monotone) :
    world.ros ≤ world.interact.ros := by
  have hbeat : world.beat.Monotone := by
    unfold World.beat
    cases hnext : world.script with
    | nil => exact Int.le_refl 0
    | cons beat rest => exact hscript beat (by simp [hnext])
  unfold Beat.Monotone at hbeat
  simp only [World.interact]
  omega

/-- Time passes, and nothing that happened is forgotten. -/
structure Extends (world next : World) : Prop where
  config : next.config = world.config
  ros : world.ros ≤ next.ros
  deadline : next.deadline = world.deadline
  log : world.log ⊆ next.log

theorem AskedOf.extend (hasked : world.AskedOf mp) (hextends : world.Extends next)
    (hserial : next.serialOf mp.pid = world.serialOf mp.pid) : next.AskedOf mp := by
  obtain ⟨hstate, requested, serial, htime, hros, hchild, hlogged, hdeadline⟩ := hasked
  refine ⟨hstate, requested, serial, htime, Int.le_trans hros hextends.ros, hserial.trans hchild,
    hextends.log hlogged, ?_⟩
  rw [hextends.deadline, hextends.config]
  exact hdeadline

/-- The request concerns three fields of the entry. -/
theorem AskedOf.congr {other : ManagedProcess} (hasked : world.AskedOf mp)
    (hstate : other.state = mp.state) (hpid : other.pid = mp.pid)
    (htime : other.stopRequestTime = mp.stopRequestTime) : world.AskedOf other := by
  unfold AskedOf
  rw [hstate, hpid, htime]
  exact hasked

end World

/-- The invariant behind the escalation. -/
structure Escalating (world : World) : Prop where
  script : ∀ beat ∈ world.script, beat.Monotone
  asked : ∀ mp ∈ world.processes, mp.stopping = true → world.AskedOf mp
  quiet : world.deadline ≠ none → ∀ mp ∈ world.processes, ¬ mp.state.rising
  kills : Justified (KillRule world.config.gracefulShutdownTimeout) world.log

namespace Escalating

variable {world next : World} {i : Nat} {change : ManagedProcess → ManagedProcess}

/-- No entry changes. -/
theorem of_same (hescalating : Escalating world) (hextends : world.Extends next)
    (hscript : next.script ⊆ world.script) (hprocesses : next.processes = world.processes)
    (hserial : ∀ pid, next.serialOf pid = world.serialOf pid)
    (hkills : Justified (KillRule world.config.gracefulShutdownTimeout) next.log) :
    Escalating next where
  script beat hbeat := hescalating.script beat (hscript hbeat)
  asked mp hmp hstopping := by
    rw [hprocesses] at hmp
    exact (hescalating.asked mp hmp hstopping).extend hextends (hserial mp.pid)
  quiet := by
    rw [hextends.deadline, hprocesses]
    exact hescalating.quiet
  kills := by
    rw [hextends.config]
    exact hkills

/-- One entry changes, and the children of the others stay. -/
theorem of_update (hescalating : Escalating world) (hextends : world.Extends next)
    (hscript : next.script = world.script)
    (hprocesses : next.processes = world.processes.modify i change)
    (hserial : ∀ (j : Nat) (mp : ManagedProcess), i ≠ j → world.processes[j]? = some mp →
      world.AskedOf mp → next.serialOf mp.pid = world.serialOf mp.pid)
    (hhere : ∀ mp, world.processes[i]? = some mp → (change mp).stopping = true →
      next.AskedOf (change mp))
    (hquiet : ∀ mp, world.processes[i]? = some mp → (change mp).state.rising →
      mp.state.rising ∨ world.deadline = none)
    (hkills : Justified (KillRule world.config.gracefulShutdownTimeout) next.log) :
    Escalating next where
  script := hscript ▸ hescalating.script
  asked := by
    intro after hafter hstopping
    rw [hprocesses] at hafter
    obtain ⟨j, hj⟩ := List.mem_iff_getElem?.mp hafter
    rcases getElem?_modify_cases hj with ⟨rfl, mp, hentry, rfl⟩ | ⟨hij, hentry⟩
    · exact hhere mp hentry hstopping
    · have hasked := hescalating.asked after (List.mem_of_getElem? hentry) hstopping
      exact hasked.extend hextends (hserial j after hij hentry hasked)
  quiet := by
    rw [hextends.deadline, hprocesses]
    intro hdeadline
    refine forall_modify (hescalating.quiet hdeadline) fun mp hentry hrising => ?_
    rcases hquiet mp hentry hrising with hrising | hnone
    · exact hescalating.quiet hdeadline mp (List.mem_of_getElem? hentry) hrising
    · exact hdeadline hnone
  kills := by
    rw [hextends.config]
    exact hkills

/-- A flagged entry is in STOPPING. -/
theorem not_stopping (hescalating : Escalating world) {mp : ManagedProcess}
    (hentry : world.processes[i]? = some mp) (hstate : mp.state ≠ .stopping) :
    mp.stopping = false := by
  cases hstopping : mp.stopping with
  | false => rfl
  | true =>
      exact absurd (hescalating.asked mp (List.mem_of_getElem? hentry) hstopping).1 hstate

/-- An entry without a child carries no request. -/
theorem unflagged (hescalating : Escalating world) {mp : ManagedProcess}
    (hentry : world.processes[i]? = some mp) (hidle : ¬ mp.state.live) :
    ∀ same, world.processes[i]? = some same → same.stopping = false := by
  intro same hsame
  cases hentry.symm.trans hsame
  exact hescalating.not_stopping hentry fun hstate => hidle (hstate ▸ trivial)

/-- One entry changes and is no longer flagged, nor counted on. -/
theorem of_unflagged (hescalating : Escalating world) (hextends : world.Extends next)
    (hscript : next.script = world.script)
    (hprocesses : next.processes = world.processes.modify i change)
    (hserial : ∀ (j : Nat) (mp : ManagedProcess), i ≠ j → world.processes[j]? = some mp →
      world.AskedOf mp → next.serialOf mp.pid = world.serialOf mp.pid)
    (hflag : ∀ mp, world.processes[i]? = some mp → (change mp).stopping = false)
    (hdown : ∀ mp, ¬ (change mp).state.rising)
    (hkills : Justified (KillRule world.config.gracefulShutdownTimeout) next.log) :
    Escalating next :=
  hescalating.of_update hextends hscript hprocesses hserial
    (fun mp hentry hstopping => by rw [hflag mp hentry] at hstopping; cases hstopping)
    (fun mp _ hrising => absurd hrising (hdown mp)) hkills

/-- A reaped child is no other entry's child. -/
theorem serialOf_others (hsound : Sound world) {mp : ManagedProcess} {child : Child}
    (hentry : world.processes[i]? = some mp) (hpid : mp.pid = child.pid) :
    ∀ (j : Nat) (other : ManagedProcess), i ≠ j → world.processes[j]? = some other →
      world.AskedOf other →
      (world.forget child.pid).serialOf other.pid = world.serialOf other.pid := by
  intro j other hij hother hasked
  have hlive := hsound.pidLive other (List.mem_of_getElem? hother) (hasked.1 ▸ trivial)
  exact World.serialOf_forget_other hsound.pidDistinct hentry hpid hij hother hlive

/-- One entry changes, but neither its request nor its child. -/
theorem of_bookkeeping (hescalating : Escalating world)
    (hnext : ∃ notes, next = { world.update i change with notes })
    (hsame : ∀ mp, (change mp).stopping = mp.stopping ∧ (change mp).state = mp.state ∧
      (change mp).pid = mp.pid ∧ (change mp).stopRequestTime = mp.stopRequestTime) :
    Escalating next := by
  obtain ⟨notes, rfl⟩ := hnext
  have hextends : world.Extends { world.update i change with notes } :=
    ⟨rfl, Int.le_refl _, rfl, fun _ hevent => hevent⟩
  refine hescalating.of_update hextends rfl rfl (fun _ _ _ _ _ => rfl)
    (fun mp hentry hstopping => ?_)
    (fun mp _ hrising => Or.inl ((hsame mp).2.1 ▸ hrising)) hescalating.kills
  rw [(hsame mp).1] at hstopping
  exact ((hescalating.asked mp (List.mem_of_getElem? hentry) hstopping).extend hextends rfl).congr
    (hsame mp).2.1 (hsame mp).2.2.1 (hsame mp).2.2.2

end Escalating

/-- Each `force_kill` comes at least the shorter timeout after the request. -/
theorem Escalating.killRule {world : World} (hescalating : Escalating world) (hsound : Sound world)
    {mp : ManagedProcess} (hmp : mp ∈ world.processes) (hpid : 0 < mp.pid)
    (htracked : Tracked world) (hguard : world.KillGuard mp) :
    mp.stopping = true ∧ ∃ serial requested, world.serialOf mp.pid = some serial ∧
      .stopRequested mp.pid (world.serialOf mp.pid) requested ∈ world.log ∧
      min mp.shutdownTimeoutSec world.config.gracefulShutdownTimeout ≤ world.ros - requested := by
  have hstopping : mp.stopping = true := by
    rcases hguard with ⟨hstopping, _⟩ | ⟨_, _, deadline, hdeadline, _⟩
    · exact hstopping
    · have hlive : mp.state.live := by
        by_contra hidle
        rw [htracked.idle mp hmp hidle] at hpid
        exact absurd hpid (by decide)
      have hrising := hescalating.quiet (by simp [hdeadline]) mp hmp
      rw [ProcessState.live_iff] at hlive
      exact hsound.stoppingFlag mp hmp (by unfold ProcessState.rising at hrising; tauto)
  obtain ⟨_, requested, serial, htime, _, hserial, hlogged, hlimit⟩ :=
    hescalating.asked mp hmp hstopping
  refine ⟨hstopping, serial, requested, hserial, hserial ▸ hlogged, ?_⟩
  rcases hguard with ⟨_, elapsed, helapsed, hlate⟩ | ⟨_, _, deadline, hdeadline, hpassed⟩
  · -- The request was made on the node clock, so the difference is defined.
    rw [htime] at helapsed
    simp only [Time.sub?, World.clock, if_true, Option.some.injEq] at helapsed
    omega
  · -- The deadline was fixed after the request.
    have hbefore := hlimit deadline hdeadline
    omega

/-- An event of another kind is no `force_kill`. -/
theorem Escalating.kills_cons {world : World} (hescalating : Escalating world) {event : Event}
    (hother : ∀ pid child shutdownTimeoutSec time,
      event ≠ .forceKilled pid child shutdownTimeoutSec time) :
    Justified (KillRule world.config.gracefulShutdownTimeout) (event :: world.log) := by
  refine ⟨?_, hescalating.kills⟩
  cases event with
  | forceKilled pid child shutdownTimeoutSec time => exact absurd rfl (hother _ _ _ _)
  | _ => trivial

/-! ## One lemma for each action -/

namespace Escalating

variable {world : World}

/-- Neither the entries nor the children change, and another event is noted. -/
theorem noted (h : Escalating world) {next : World} {event : Event}
    (hextends : world.Extends next) (hscript : next.script = world.script)
    (hprocesses : next.processes = world.processes) (hlog : next.log = event :: world.log)
    (hserial : ∀ pid, next.serialOf pid = world.serialOf pid)
    (hother : ∀ pid child shutdownTimeoutSec time,
      event ≠ .forceKilled pid child shutdownTimeoutSec time) : Escalating next := by
  apply h.of_same hextends (hscript ▸ List.Subset.refl _) hprocesses hserial
  rw [hlog]
  exact h.kills_cons hother

theorem interact (h : Escalating world) : Escalating world.interact :=
  h.of_same ⟨rfl, World.ros_le_interact h.script, rfl, fun _ hevent => hevent⟩
    (fun _ hlater => List.mem_of_mem_tail hlater) rfl world.serialOf_interact h.kills

/-- The deadline comes after every request that has been made. -/
theorem setDeadline (h : Escalating world)
    (hasked : ∀ mp ∈ world.processes, mp.state ≠ .starting ∧ mp.state ≠ .running) :
    Escalating { world with
      deadline := some ⟨world.ros + world.config.gracefulShutdownTimeout, .rosTime⟩ } where
  script := h.script
  asked := by
    intro mp hmp hstopping
    obtain ⟨hstate, requested, serial, htime, hros, hchild, hlogged, _⟩ := h.asked mp hmp hstopping
    refine ⟨hstate, requested, serial, htime, hros, hchild, hlogged, ?_⟩
    intro deadline hdeadline
    cases hdeadline
    exact Int.add_le_add_right hros _
  quiet := fun _ mp hmp hrising => hrising.elim (hasked mp hmp).1 (hasked mp hmp).2
  kills := h.kills

theorem clearDeadline (h : Escalating world) : Escalating { world with deadline := none } where
  script := h.script
  asked := by
    intro mp hmp hstopping
    obtain ⟨hstate, requested, serial, htime, hros, hchild, hlogged, _⟩ := h.asked mp hmp hstopping
    refine ⟨hstate, requested, serial, htime, hros, hchild, hlogged, ?_⟩
    intro deadline hdeadline
    cases hdeadline
  quiet := fun hdeadline => absurd rfl hdeadline
  kills := h.kills

/-- The new child goes to an entry without a request. -/
theorem forkSucceeded (h : Escalating world) {i : Nat} {mp : ManagedProcess}
    (hentry : world.processes[i]? = some mp) (hlive : ¬ mp.state.live)
    (hidle : world.deadline = none) (pid : Pid) (startTime : Time) :
    Escalating (world.forkSucceeded i mp.name pid startTime) := by
  have hlog := world.forkSucceeded_log i mp.name pid startTime
  apply h.of_update ?_ ?_ (world.forkSucceeded_processes i mp.name pid startTime)
  · intro _ other _ _ hasked
    obtain ⟨_, _, serial, _, _, hserial, _⟩ := hasked
    exact World.serialOf_append (world.forkSucceeded_children i mp.name pid startTime) hserial
  · intro same hsame hstopping
    have hclear := h.unflagged hentry hlive same hsame
    exact absurd hstopping (by simp [hclear])
  · exact fun _ _ _ => Or.inr hidle
  · rw [hlog]
    exact h.kills_cons fun _ _ _ _ hevent => by cases hevent
  · exact ⟨by simp, by simp, by simp, by simp [hlog]⟩
  · simp

theorem resetForStart (h : Escalating world) {i : Nat} {mp : ManagedProcess}
    (hentry : world.processes[i]? = some mp) (hlive : ¬ mp.state.live) :
    Escalating (world.resetForStart i mp.name) := by
  apply h.of_unflagged ?_ ?_ (world.resetForStart_processes i mp.name) ?_
    (h.unflagged hentry hlive) (fun _ => by simp [ProcessState.rising])
  · rw [World.resetForStart_log]
    exact h.kills
  · exact ⟨by simp, by simp, by simp, by simp⟩
  · simp
  · intro _ _ _ _ _
    simp [World.serialOf]

/-- No entry is in STOPPING when all are reset. -/
theorem resetEntries (h : Escalating world)
    (hstate : ∀ mp ∈ world.processes,
      mp.state = .stopped ∨ mp.state = .pending ∨ mp.state = .restarting ∧ mp.pid ≤ 0) :
    Escalating world.resetEntries where
  script := h.script
  asked := by
    intro after hafter hstopping
    obtain ⟨mp, hmp, rfl⟩ := List.mem_map.mp hafter
    have hasked := (h.asked mp hmp hstopping).1
    rcases hstate mp hmp with hstate | hstate | ⟨hstate, _⟩ <;>
      exact absurd (hasked.symm.trans hstate) (by decide)
  quiet := by
    intro _ after hafter
    obtain ⟨mp, _, rfl⟩ := List.mem_map.mp hafter
    simp [ProcessState.rising]
  kills := h.kills

/-- The request is noted with the child that the entry has. -/
theorem stopRequested (h : Escalating world) (hsound : Sound world) {i : Nat}
    {mp : ManagedProcess} (hentry : world.processes[i]? = some mp) (hpid : 0 < mp.pid)
    (hidle : world.deadline = none) : Escalating (world.stopRequested i mp.pid) := by
  obtain ⟨serial, hserial⟩ :=
    World.serialOf_isSome (hsound.hasChild mp (List.mem_of_getElem? hentry) hpid)
  refine h.of_update ⟨rfl, Int.le_refl _, rfl, List.subset_cons_self _ _⟩ rfl rfl
    (fun _ _ _ _ _ => rfl) ?_ (fun _ _ _ => Or.inr hidle)
    (h.kills_cons fun _ _ _ _ hevent => by cases hevent)
  intro same hsame _
  cases hentry.symm.trans hsame
  refine ⟨rfl, world.ros, serial, rfl, Int.le_refl _, hserial, ?_, ?_⟩
  · rw [← hserial]
    exact List.mem_cons_self
  · intro deadline hdeadline
    cases hidle.symm.trans hdeadline

theorem forceKilled (h : Escalating world) (hsound : Sound world) (htracked : Tracked world)
    {i : Nat} {mp : ManagedProcess} (hentry : world.processes[i]? = some mp) (hpid : 0 < mp.pid)
    (hguard : world.KillGuard mp) : Escalating (world.forceKilled i mp) := by
  obtain ⟨_, serial, requested, hserial, hlogged, hlimit⟩ :=
    h.killRule hsound (List.mem_of_getElem? hentry) hpid htracked hguard
  exact h.of_unflagged ⟨rfl, Int.le_refl _, rfl, List.subset_cons_self _ _⟩ rfl rfl
    (fun _ other _ _ _ => world.serialOf_markKilled mp.pid other.pid) (fun _ _ => rfl)
    (fun _ => by simp [ProcessState.rising])
    ⟨⟨serial, requested, hserial, hlogged, hlimit⟩, h.kills⟩

/-- The child of no entry is reaped. -/
theorem forget (h : Escalating world) {pid : Pid}
    (hforeign : ∀ mp ∈ world.processes, mp.pid ≠ pid) : Escalating (world.forget pid) where
  script := h.script
  asked mp hmp hstopping :=
    (h.asked mp hmp hstopping).extend ⟨rfl, Int.le_refl _, rfl, List.Subset.refl _⟩
      (world.serialOf_forget (hforeign mp hmp))
  quiet := h.quiet
  kills := h.kills

theorem reapedStopped (h : Escalating world) (hsound : Sound world) {i : Nat}
    {mp : ManagedProcess} {child : Child} (hentry : world.processes[i]? = some mp)
    (hpid : mp.pid = child.pid) (status : WaitStatus) :
    Escalating (world.reapedStopped i child status) :=
  h.of_unflagged ⟨rfl, Int.le_refl _, rfl, List.Subset.refl _⟩ rfl rfl
    (serialOf_others hsound hentry hpid) (fun _ _ => rfl)
    (fun _ => by simp [ProcessState.rising]) h.kills

theorem reapedCrashed (h : Escalating world) (hsound : Sound world) {i : Nat}
    {mp : ManagedProcess} {child : Child} (hentry : world.processes[i]? = some mp)
    (hpid : mp.pid = child.pid) (hstopping : mp.stopping = false) (status : WaitStatus) :
    Escalating (world.reapedCrashed i child status) := by
  refine h.of_unflagged ⟨rfl, Int.le_refl _, rfl, List.Subset.refl _⟩ rfl rfl
    (serialOf_others hsound hentry hpid) ?_ (fun _ => by simp [ProcessState.rising]) h.kills
  intro same hsame
  cases hentry.symm.trans hsame
  exact hstopping

theorem markRunning (h : Escalating world) {i : Nat} {mp : ManagedProcess}
    (hentry : world.processes[i]? = some mp) (hstate : mp.state = .starting) :
    Escalating (world.update i fun mp => { mp with state := .running }) := by
  have hclear := h.not_stopping hentry (by simp [hstate])
  refine h.of_update ⟨rfl, Int.le_refl _, rfl, List.Subset.refl _⟩ rfl rfl
    (fun _ _ _ _ _ => rfl) ?_ ?_ h.kills
  · intro same hsame hflag
    cases hentry.symm.trans hsame
    exact absurd hflag (by simp [hclear])
  · intro same hsame _
    cases hentry.symm.trans hsame
    exact Or.inl (Or.inl hstate)

end Escalating

theorem Act.escalating {kind : Kind} {world next : World} (hact : Act kind world next)
    (hkept : ∀ i, kind ≠ .displace i) (hstay : kind ≠ .giveUp)
    (hclock : ∀ script, kind = .enter script → ∀ beat ∈ script, beat.Monotone)
    (hsound : Sound world) (htracked : Tracked world) (hescalating : Escalating world) :
    Escalating next := by
  have hpush : ∀ event : Event, world.log ⊆ event :: world.log :=
    fun event => List.subset_cons_self event world.log
  cases hact with
  | env => exact hescalating.interact
  | enter _ script =>
      exact ⟨hclock script rfl, hescalating.asked, hescalating.quiet, hescalating.kills⟩
  | setDeadline _ hasked => exact hescalating.setDeadline hasked
  | clearDeadline => exact hescalating.clearDeadline
  | publish _ statuses =>
      exact hescalating.noted ⟨rfl, Int.le_refl _, rfl, hpush _⟩ rfl rfl rfl (fun _ => rfl)
        fun _ _ _ _ hevent => by cases hevent
  | zombieKill _ pid =>
      exact hescalating.noted ⟨rfl, Int.le_refl _, rfl, hpush _⟩ rfl rfl rfl
        (world.serialOf_markKilled pid) fun _ _ _ _ hevent => by cases hevent
  | fork _ _ i mp pid startTime hentry _ hguard hidle =>
      exact hescalating.forkSucceeded hentry hguard.not_live hidle pid startTime
  | forkFail _ _ i mp _ hentry hguard =>
      exact hescalating.of_unflagged ⟨rfl, Int.le_refl _, rfl, List.Subset.refl _⟩ rfl rfl
        (fun _ _ _ _ _ => rfl) (hescalating.unflagged hentry hguard.not_live)
        (fun _ => by simp [ProcessState.rising]) hescalating.kills
  | reset _ i mp hentry hstate =>
      have hidle : ¬ mp.state.live := by
        -- In STOPPING it would be displaced.
        have hstopping : mp.state ≠ .stopping := fun hstopping => hkept i (if_pos hstopping)
        cases hmp : mp.state <;> simp [hmp, ProcessState.live] at hstate hstopping ⊢
      exact hescalating.resetForStart hentry hidle
  | resetEntries _ hstate => exact hescalating.resetEntries hstate
  | requestStop _ i mp hentry hpid hidle => exact hescalating.stopRequested hsound hentry hpid hidle
  | forceKill _ i mp hentry hpid hguard =>
      exact hescalating.forceKilled hsound htracked hentry hpid hguard
  | reapUnmanaged _ child _ hforeign => exact hescalating.forget hforeign
  | reapStopped _ i mp child status hentry hpid =>
      exact hescalating.reapedStopped hsound hentry hpid status
  | reapCrashed _ i mp child status hentry hpid _ _ hstopping =>
      exact hescalating.reapedCrashed hsound hentry hpid hstopping status
  | markRunning _ i mp hentry hstate => exact hescalating.markRunning hentry hstate
  | permitRestart | resetBackoff | countRestart | growBackoff =>
      exact hescalating.of_bookkeeping ⟨_, rfl⟩ fun _ => ⟨rfl, rfl, rfl, rfl⟩
  | arm _ serial | armStale _ serial =>
      exact hescalating.noted ⟨rfl, Int.le_refl _, rfl, hpush _⟩ rfl rfl rfl (fun _ => rfl)
        fun _ _ _ _ hevent => by cases hevent
  | giveUp => exact absurd rfl hstay
  | healthKill _ i mp =>
      exact hescalating.noted ⟨rfl, Int.le_refl _, rfl, hpush _⟩ rfl rfl rfl
        (world.serialOf_markKilled mp.pid) fun _ _ _ _ hevent => by cases hevent
  | _ =>
      exact hescalating.of_same ⟨rfl, Int.le_refl _, rfl, List.Subset.refl _⟩
        (List.Subset.refl _) rfl (fun _ => rfl) hescalating.kills

theorem escalating_initial (config : Config) (nodes : List ProcessNode) (ros steady : Int) :
    Escalating (initial config nodes ros steady) where
  script _ hbeat := absurd hbeat List.not_mem_nil
  asked mp hmp hstopping := by
    rw [(initial_entries hmp).2.2] at hstopping
    cases hstopping
  quiet hdeadline := absurd rfl hdeadline
  kills := trivial

/-- SIGKILL after a timeout follows SIGINT to the same child, and a stop flag stands
for such a request. -/
structure Escalates (world : World) : Prop where
  kill : ∀ later pid child shutdownTimeoutSec time earlier,
    world.log = later ++ .forceKilled pid child shutdownTimeoutSec time :: earlier →
    ∃ serial requested, child = some serial ∧ .stopRequested pid child requested ∈ earlier ∧
      min shutdownTimeoutSec world.config.gracefulShutdownTimeout ≤ time - requested
  flag : ∀ mp ∈ world.processes, mp.stopping = true → mp.state = .stopping ∧
    ∃ requested serial, mp.stopRequestTime = ⟨requested, .rosTime⟩ ∧
      world.serialOf mp.pid = some serial ∧
      .stopRequested mp.pid (some serial) requested ∈ world.log

theorem Escalating.escalates {world : World} (hescalating : Escalating world) :
    Escalates world where
  kill later pid child shutdownTimeoutSec time earlier hlog := by
    have hkills := hescalating.kills
    rw [hlog] at hkills
    exact hkills.at
  flag mp hmp hstopping := by
    obtain ⟨hstate, requested, serial, htime, _, hserial, hlogged, _⟩ :=
      hescalating.asked mp hmp hstopping
    exact ⟨hstate, requested, serial, htime, hserial, hlogged⟩

/-- No start request displaces a stopping child, and the health check does not give up. -/
def OrderlyStops (world : World) (label : Label) : Prop :=
  NoDisplacement world label ∧ ¬ GivesUpAt world label

/-- The node clock does not run backwards while the callback of the label runs. -/
def Label.Monotone (label : Label) : Prop := ∀ beat ∈ label.script, beat.Monotone

instance (label : Label) : Decidable label.Monotone :=
  inferInstanceAs (Decidable (∀ beat ∈ label.script, beat.Monotone))

theorem run_escalates (config : Config) (nodes : List ProcessNode) (ros steady : Int)
    (labels : List Label) (hclock : ∀ label ∈ labels, label.Monotone)
    (hlabels : EveryStep step OrderlyStops (initial config nodes ros steady) labels) :
    Escalates (run step (initial config nodes ros steady) labels) := by
  refine (run_keeps_acts (fun world => Tracked world ∧ Escalating world) ?_
    (ready_initial config nodes ros steady)
    ⟨tracked_initial config nodes ros steady, escalating_initial config nodes ros steady⟩
    (hlabels.and step (everyStep_of_forall step hclock _))).2.escalates
  rintro world label kind state next _ ⟨⟨hclean, hstay⟩, hmonotone⟩ hkind hsound
    ⟨htracked, hescalating⟩ hact
  have hkept : ∀ i, kind ≠ .displace i := by
    rintro i rfl
    exact hclean i hkind
  refine ⟨hact.tracked hkept hsound htracked,
    hact.escalating hkept ?_ ?_ hsound htracked hescalating⟩
  · rintro rfl
    exact hstay hkind
  · rintro script rfl
    have hscript : script = label.script := hkind
    rw [hscript]
    exact hmonotone

theorem not_givesUpAt_of_unarmed {world : World} {label : Label}
    (hunarmed : (world.entered label).beforeHealth.odinHealthArmed = false) :
    ¬ GivesUpAt world label := by
  rintro ⟨_, _, _, _, _, _, _, _, harmed, _⟩
  rw [hunarmed] at harmed
  cases harmed

theorem not_givesUpAt_of_request {world : World} {label : Label}
    (hrequest : label.request ≠ .timer) : ¬ GivesUpAt world label :=
  fun hgives => hrequest hgives.1

/-- A child that ignores SIGINT for eleven seconds. -/
def stubbornRun : List Label :=
  [forkingTick 100, ⟨.timer, []⟩, ⟨.stop "mavros", []⟩,
    ⟨.timer, [{}, { elapsed := 11000000000 }]⟩]

set_option maxRecDepth 4000 in
theorem escalates_stubbornRun : Escalates (run step (initial {} [mavros] 0 0) stubbornRun) := by
  apply run_escalates
  · decide
  · refine ⟨⟨noDisplacement_of_request ?_, not_givesUpAt_of_unarmed ?_⟩,
      ⟨noDisplacement_of_request ?_, not_givesUpAt_of_unarmed ?_⟩,
      ⟨noDisplacement_of_request ?_, not_givesUpAt_of_request ?_⟩,
      ⟨noDisplacement_of_request ?_, not_givesUpAt_of_unarmed ?_⟩, trivial⟩
    · exact fun _ hstart => by cases hstart
    · decide
    · exact fun _ hstart => by cases hstart
    · decide
    · exact fun _ hstart => by cases hstart
    · decide
    · exact fun _ hstart => by cases hstart
    · decide

/-- The start request of `displacingRun` is followed by a tick eleven seconds later. -/
def staleRequestRun : List Label :=
  displacingRun ++ [⟨.timer, [{}, { elapsed := 11000000000 }]⟩]

/-- The pid to which SIGINT was sent. -/
def Event.requested? : Event → Option Pid
  | .stopRequested pid _ _ => some pid
  | _ => none

set_option maxRecDepth 4000 in
/-- The child 102 is killed on the strength of the request made to the child 100. -/
theorem not_escalates_staleRequestRun :
    ¬ ∀ (config : Config) (nodes : List ProcessNode) (ros steady : Int) (labels : List Label),
      (∀ label ∈ labels, label.Monotone) →
        Escalates (run step (initial config nodes ros steady) labels) := by
  intro hall
  obtain ⟨_, _, _, hrequested, _⟩ := (hall {} [mavros] 0 0 staleRequestRun (by decide)).kill
    ((run step (initial {} [mavros] 0 0) staleRequestRun).log.take 1) 102 (some 1)
    10000000000 11000000000
    ((run step (initial {} [mavros] 0 0) staleRequestRun).log.drop 2) (by decide)
  have hothers : ∀ event ∈ (run step (initial {} [mavros] 0 0) staleRequestRun).log.drop 2,
      event.requested? ≠ some 102 := by decide
  exact hothers _ hrequested rfl

end AcflyRos.Daemon

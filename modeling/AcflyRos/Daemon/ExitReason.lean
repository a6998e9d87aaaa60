import AcflyRos.Daemon.Lives
import AcflyRos.Daemon.Tracking

/-! # The reason of an exit

The status message of an entry without a child says how its last child ended, or why there
is none. Two branches of the node break this. `force_kill` lets go of the child before it
has been reaped and says nothing about its end, which is then nobody's. The health check
says that it gives up, and the next `reap_children` overwrites it with the signal that
ended the child.
-/

namespace AcflyRos.Daemon

open AcflyRos.Transition AcflyRos.Table AcflyRos.History

/-- The note is about the beginning or the end of a child of that entry. -/
def Note.isLife (i : Nat) : Note → Bool
  | .started j _ | .forkFailed j _ _ | .stopped j _ | .crashed j _ _ | .forceKilled j => j == i
  | _ => false

/-- The note is about a start of that entry, or about there being no more. -/
def Note.isAttempt (i : Nat) : Note → Bool
  | .started j _ | .forkFailed j _ _ | .gaveUp j => j == i
  | _ => false

theorem Note.isLife_isTurn {i : Nat} {note : Note} (hlife : note.isLife i = true) :
    note.isTurn i = true := by
  cases note <;> simp_all [isLife, isTurn]

theorem Note.isAttempt_isTurn {i : Nat} {note : Note} (hattempt : note.isAttempt i = true) :
    note.isTurn i = true := by
  cases note <;> simp_all [isAttempt, isTurn]

/-- How the last child began or ended. -/
def latest (i : Nat) (notes : List Note) : Option Note := notes.find? (·.isLife i)

/-- The health check has given up on the entry, and nobody has started it since. -/
def GivenUp (i : Nat) (notes : List Note) : Prop :=
  notes.find? (·.isAttempt i) = some (.gaveUp i)

instance (i : Nat) (notes : List Note) : Decidable (GivenUp i notes) :=
  inferInstanceAs (Decidable (_ = _))

/-- The reason and the exit code say what the note says. What became of a child after
`force_kill` has not been noted: it may be any exit. -/
def Explains (reason : String) (code : Int) : Note → Prop
  | .forkFailed _ error _ => reason = "fork_failed:" ++ error
  | .stopped _ status | .crashed _ status _ =>
      reason = status.exitReason ∧ code = status.exitCode
  | .forceKilled _ => ∃ status : WaitStatus, reason = status.exitReason ∧ code = status.exitCode
  | _ => False

/-- What the status messages must say of children that have ended. -/
structure ReportsExits (world : World) : Prop where
  ended : ∀ i mp, world.processes[i]? = some mp → mp.state = .stopped ∨ mp.state = .restarting →
    ∃ status note, World.processStatus mp world = some status ∧ status.exitReason ≠ "" ∧
      latest i world.notes = some note ∧ Explains status.exitReason status.exitCode note
  gaveUp : ∀ i mp, world.processes[i]? = some mp → GivenUp i world.notes →
    ∀ status, World.processStatus mp world = some status →
      status.exitReason = "health_check_giveup:data_stall"

/-- What is noted costs an entry its reason. -/
def Loses : Note → List Note → Prop
  | .forceKilled _, _ => True
  | .stopped i _, earlier | .crashed i _ _, earlier => GivenUp i earlier
  | _, _ => False

instance Loses.decidable : ∀ note earlier, Decidable (Loses note earlier)
  | .forceKilled _, _ => isTrue trivial
  | .stopped _ _, _ | .crashed _ _ _, _ => inferInstanceAs (Decidable (GivenUp _ _))
  | .started _ _, _ | .forkFailed _ _ _, _ | .gaveUp _, _ | .restarting _ _, _
  | .uptimeReset _ _ _, _ | .manualReset _, _ | .manualResetAll, _ => isFalse id

/-- No `force_kill` is reached, and no child of an entry that the health check has given up on is
reaped. Which branches the step takes is read off its notes. -/
def KeepsReasons (world : World) (label : Label) : Prop :=
  Justified (fun note earlier => ¬ Loses note earlier) (step world label).notes

instance (world : World) (label : Label) : Decidable (KeepsReasons world label) :=
  inferInstanceAs (Decidable (Justified _ _))

/-- The fields behind the status message. -/
structure Told (i : Nat) (mp : ManagedProcess) (notes : List Note) : Prop where
  ended : mp.state = .stopped ∨ mp.state = .restarting →
    ∃ note, latest i notes = some note ∧ Explains mp.exitReason mp.exitCode note
  gaveUp : GivenUp i notes → mp.exitReason = "health_check_giveup:data_stall"

namespace Told

variable {i : Nat} {mp mp' : ManagedProcess} {notes : List Note}

theorem quiet (h : Told i mp notes) (hsame : SameLife mp mp')
    (hreason : mp'.exitReason = mp.exitReason) {later : List Note}
    (hnotes : SameTurns i notes later) : Told i mp' later where
  ended hended := by
    rw [latest, hnotes.find?_eq fun _ => Note.isLife_isTurn, hreason, hsame.exitCode]
    rw [hsame.ended hended] at hended
    exact h.ended hended
  gaveUp hgave := by
    rw [GivenUp, hnotes.find?_eq fun _ => Note.isAttempt_isTurn] at hgave
    rw [hreason]
    exact h.gaveUp hgave

/-- A turn that costs no reason gives one. -/
theorem turned {note : Note} (hturned : Turned i mp note) (hkept : ¬ Loses note notes) :
    Told i mp (note :: notes) := by
  -- A start ends what the health check has decided.
  have hstart : note.isAttempt i = true → note ≠ .gaveUp i → ¬ GivenUp i (note :: notes) := by
    intro hattempt hother hgave
    rw [GivenUp, List.find?_cons_of_pos hattempt] at hgave
    exact hother (Option.some_inj.mp hgave)
  have hreap : note.isAttempt i = false → GivenUp i (note :: notes) → GivenUp i notes := by
    intro hattempt hgave
    rwa [GivenUp, List.find?_cons_of_neg (by simp [hattempt])] at hgave
  have hlatest : note.isLife i = true → latest i (note :: notes) = some note :=
    fun hlife => List.find?_cons_of_pos hlife
  have hself : (i == i) = true := beq_self_eq_true i
  cases hturned with
  | started time hstate =>
      refine ⟨fun hended => ?_, fun hgave => absurd hgave (hstart hself (by simp))⟩
      rw [hstate] at hended
      simp at hended
  | forkFailed error time _ _ hreason =>
      exact ⟨fun _ => ⟨_, hlatest hself, hreason⟩,
        fun hgave => absurd hgave (hstart hself (by simp))⟩
  | stopped status _ hcode hreason =>
      exact ⟨fun _ => ⟨_, hlatest hself, hreason, hcode⟩,
        fun hgave => absurd (hreap rfl hgave) hkept⟩
  | crashed status time _ _ hcode hreason =>
      exact ⟨fun _ => ⟨_, hlatest hself, hreason, hcode⟩,
        fun hgave => absurd (hreap rfl hgave) hkept⟩
  | forceKilled => exact absurd trivial hkept

end Told

/-- As long as nothing has cost an entry its reason, all of them have theirs. -/
def Telling (world : World) : Prop :=
  Justified (fun note earlier => ¬ Loses note earlier) world.notes →
    ∀ i mp, world.processes[i]? = some mp → Told i mp world.notes

theorem Act.telling {kind : Kind} {world next : World} (hact : Act kind world next)
    (h : Telling world) : Telling next := by
  intro hkept i mp' hentry
  cases hact.lives hentry with
  | quiet mp hmp hsame hreason hnotes =>
      have hbefore : Justified (fun note earlier => ¬ Loses note earlier) world.notes := by
        rcases hnotes with hnone | ⟨note, _, hone⟩
        · rwa [hnone] at hkept
        · rw [hone] at hkept
          exact hkept.2
      exact (h hbefore i mp hmp).quiet hsame hreason hnotes
  | gaveUp mp hmp hsame hstate hreason hnotes =>
      refine ⟨fun hended => ?_, fun _ => hreason⟩
      rw [hstate] at hended
      simp at hended
  | turned mp hmp note hturned hnotes =>
      rw [hnotes] at hkept ⊢
      exact Told.turned hturned hkept.1

theorem WaitStatus.exitReason_ne_empty (status : WaitStatus) : status.exitReason ≠ "" := by
  intro hempty
  have hlength := congrArg (fun reason => reason.toList.length) hempty
  cases status <;> simp [exitReason] at hlength

theorem Explains.ne_empty {reason : String} {code : Int} {note : Note}
    (h : Explains reason code note) : reason ≠ "" := by
  cases note with
  | forkFailed _ error =>
      rintro rfl
      have hlength := congrArg (fun reason => reason.toList.length) h
      simp at hlength
  | stopped _ status | crashed _ status =>
      rw [h.1]
      exact status.exitReason_ne_empty
  | forceKilled =>
      obtain ⟨status, hreason, _⟩ := h
      rw [hreason]
      exact status.exitReason_ne_empty
  | started | gaveUp | restarting | uptimeReset | manualReset | manualResetAll => exact h.elim

theorem Telling.reportsExits {world : World} (h : Telling world)
    (hkept : Justified (fun note earlier => ¬ Loses note earlier) world.notes) :
    ReportsExits world where
  ended i mp hmp hended := by
    obtain ⟨note, hlatest, hexplains⟩ := (h hkept i mp hmp).ended hended
    have hstatus : World.processStatus mp world = some
        { name := mp.name, state := stateToStr mp.state, pid := mp.pid,
          restartCount := mp.restartCount, uptimeSec := 0,
          exitCode := mp.exitCode, exitReason := mp.exitReason } := by
      unfold World.processStatus
      exact if_neg (by rcases hended with hstate | hstate <;> simp [hstate])
    exact ⟨_, note, hstatus, hexplains.ne_empty, hlatest, hexplains⟩
  gaveUp i mp hmp hgave status hstatus := by
    rw [← (h hkept i mp hmp).gaveUp hgave]
    unfold World.processStatus at hstatus
    dsimp only at hstatus
    split at hstatus
    · obtain ⟨_, _, rfl⟩ := Option.map_eq_some_iff.mp hstatus
      rfl
    · cases hstatus
      rfl

/-- In every run in which no step costs an entry its reason. -/
theorem run_reportsExits (config : Config) (nodes : List ProcessNode) (ros steady : Int)
    (labels : List Label)
    (hlabels : EveryStep step KeepsReasons (initial config nodes ros steady) labels) :
    ReportsExits (run step (initial config nodes ros steady) labels) := by
  refine Telling.reportsExits ?_ ?_
  · refine run_keeps_acts Telling (fun _ _ _ _ _ _ _ _ _ h hact => hact.telling h)
      (ready_initial config nodes ros steady) ?_ hlabels
    intro _ i mp hmp
    refine ⟨fun hended => ?_, fun hgave => by cases hgave⟩
    rw [(initial_entries (List.mem_of_getElem? hmp)).2.1] at hended
    simp at hended
  · exact run_keeps step (fun world => Justified (fun note earlier => ¬ Loses note earlier)
      world.notes) (fun _ _ _ hkeeps => hkeeps) trivial hlabels

/-- A child exits, and the fork of the next one fails. -/
def failedAgain : List Label :=
  [forkingTick 100, ⟨.timer, []⟩, ⟨.timer, [{ exits := [(100, .exited 1)] }]⟩,
    ⟨.timer, [{ elapsed := 1000000000 }, {}, {}, {}, {}, { error := "Resource unavailable" }]⟩]

set_option maxRecDepth 4000 in
theorem reportsExits_failedAgain :
    ReportsExits (run step (initial {} [mavros] 0 0) failedAgain) :=
  run_reportsExits {} [mavros] 0 0 failedAgain (by decide)

/-- A child that does not react to SIGINT for more than the ten seconds it is given. -/
def deaf : List Label :=
  [forkingTick 100, ⟨.timer, []⟩, ⟨.stop "mavros", []⟩, ⟨.timer, [{ elapsed := 11000000000 }]⟩]

set_option maxRecDepth 4000 in
/-- It is force-killed, and its entry is STOPPED for no reason. -/
theorem not_reportsExits_deaf :
    ¬ ∀ (config : Config) (nodes : List ProcessNode) (ros steady : Int) (labels : List Label),
      ReportsExits (run step (initial config nodes ros steady) labels) := by
  intro hall
  have hentry : ((run step (initial {} [mavros] 0 0) deaf).processes[0]?.map fun mp =>
      (mp.state, mp.exitReason)) = some (.stopped, "") := by decide
  obtain ⟨mp, hmp, hfields⟩ := Option.map_eq_some_iff.mp hentry
  obtain ⟨hstopped, hreason⟩ := Prod.mk.inj hfields
  obtain ⟨status, _, hstatus, hempty, _⟩ := (hall {} [mavros] 0 0 deaf).ended 0 mp hmp
    (Or.inl hstopped)
  unfold World.processStatus at hstatus
  rw [if_neg (by simp [hstopped])] at hstatus
  cases hstatus
  exact hempty hreason

end AcflyRos.Daemon

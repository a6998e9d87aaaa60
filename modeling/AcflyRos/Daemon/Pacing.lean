import AcflyRos.Foundation.Backoff
import AcflyRos.Daemon.Escalation
import AcflyRos.Daemon.ExitReason
import AcflyRos.Daemon.Vitals

/-! # The pace of automatic restarts

`handle_restarts` doubles the backoff after it has called `start_process`, whether or not the
fork succeeded. The stored backoff is therefore always the delay of the number of automatic
restarts since the last reset, and each restart waits for it after the crash or the failed
fork it answers.
-/

namespace AcflyRos.Daemon

open AcflyRos.Transition AcflyRos.Table AcflyRos.History AcflyRos.Backoff

/-! ## The schedule -/

/-- An automatic restart of that entry. -/
def Note.restarts (i : Nat) : Note → Bool
  | .restarting j _ => j == i
  | _ => false

/-- The backoff of that entry is taken back. -/
def Note.resets (i : Nat) : Note → Bool
  | .uptimeReset j _ _ | .manualReset j => j == i
  | .manualResetAll => true
  | _ => false

/-- The automatic restarts of the entry since its backoff was last taken back. -/
def restartsSince (i : Nat) : List Note → Nat
  | [] => 0
  | note :: earlier =>
      if note.resets i then 0
      else if note.restarts i then restartsSince i earlier + 1
      else restartsSince i earlier

/-- The last beginning, end or automatic restart of the entry. -/
def lastTurn (i : Nat) (notes : List Note) : Option Note :=
  notes.find? fun note => note.isLife i || note.restarts i

/-- The child has exited, or could not be forked, at that time. -/
def Note.FailedAt (i : Nat) (time : Int) : Note → Prop
  | .forkFailed j _ failed | .crashed j _ failed => j = i ∧ failed = time
  | _ => False

/-- The delay of the configuration after that many automatic restarts. -/
def Config.delay (config : Config) (restarts : Nat) : Int :=
  Backoff.delay config.initialBackoffSec config.maxBackoffSec restarts

/-- An automatic restart answers a failure, which no other restart has answered, after the delay.
The uptime that takes a backoff back is that of a child that has neither exited nor been let go,
and whose entry is RUNNING. -/
def Schedule (config : Config) : Note → List Note → Prop
  | .restarting i time, earlier => ∃ failure failed, lastTurn i earlier = some failure ∧
      failure.FailedAt i failed ∧ failed + config.delay (restartsSince i earlier) ≤ time
  | .uptimeReset i state time, earlier => state = .running ∧
      ∃ started, lastTurn i earlier = some (.started i started) ∧
        started + config.minUptimeResetSec ≤ time
  | _, _ => True

/-- The backoffs are within bounds and in step with the automatic restarts, which keep to the
schedule. -/
structure PacedBy (config : Config) (world : World) : Prop where
  bounded : ∀ mp ∈ world.processes, config.initialBackoffSec ≤ mp.currentBackoffSec ∧
    mp.currentBackoffSec ≤ config.maxBackoffSec
  inStep : ∀ i mp, world.processes[i]? = some mp →
    mp.currentBackoffSec = config.delay (restartsSince i world.notes)
  schedule : Justified (Schedule config) world.notes

/-- Who takes a backoff back: a start or restart request for the entry, or a tick. -/
def ResetBy (world : World) (label : Label) (i : Nat) : Note → Prop
  | .uptimeReset _ _ _ => label.request = .timer
  | .manualReset _ => ∃ name, (label.request = .start name ∨ label.request = .restart name) ∧
      world.findProcess name = some i
  | .manualResetAll => label.request = .restart ""
  | _ => False

/-- A step takes a backoff back, or makes it shorter, only by what it notes as a reset. -/
def ResetsRarely (world : World) (label : Label) : Prop :=
  ∃ new, (step world label).notes = new ++ world.notes ∧
    ∀ i, (∀ note ∈ new, note.resets i = true → ResetBy world label i note) ∧
      ∀ mp mp', world.processes[i]? = some mp → (step world label).processes[i]? = some mp' →
        mp'.currentBackoffSec < mp.currentBackoffSec → ∃ note ∈ new, note.resets i = true

/-! ## What an action does to a backoff -/

/-- The notes about the backoff of the entry are the same. -/
def SameRestarts (i : Nat) (earlier later : List Note) : Prop :=
  later = earlier ∨ ∃ note, note.resets i = false ∧ note.restarts i = false ∧
    later = note :: earlier

/-- What an action other than an automatic restart makes of a backoff. -/
inductive Backs (world next : World) (i : Nat) (mp' : ManagedProcess) : Prop
  | same (mp : ManagedProcess) (hentry : world.processes[i]? = some mp)
      (hbackoff : mp'.currentBackoffSec = mp.currentBackoffSec)
      (hnotes : SameRestarts i world.notes next.notes)
  | reset (note : Note) (hbackoff : mp'.currentBackoffSec = world.config.initialBackoffSec)
      (hnote : note.resets i = true) (hnotes : next.notes = note :: world.notes)

namespace Backs

variable {world next : World} {i j : Nat} {mp' : ManagedProcess}
  {change : ManagedProcess → ManagedProcess}

theorem of_same (hprocesses : next.processes = world.processes) (hnotes : next.notes = world.notes)
    (hentry : next.processes[j]? = some mp') : Backs world next j mp' :=
  .same mp' (hprocesses ▸ hentry) rfl (Or.inl hnotes)

theorem of_modify (hprocesses : next.processes = world.processes.modify i change)
    (hchange : ∀ mp, (change mp).currentBackoffSec = mp.currentBackoffSec)
    (hnotes : ∀ j, SameRestarts j world.notes next.notes)
    (hentry : next.processes[j]? = some mp') : Backs world next j mp' := by
  rw [hprocesses] at hentry
  rcases getElem?_modify_cases hentry with ⟨rfl, mp, hmp, rfl⟩ | ⟨_, hmp⟩
  · exact .same mp hmp (hchange mp) (hnotes i)
  · exact .same mp' hmp rfl (hnotes j)

/-- The backoff of one entry is taken back. -/
theorem of_reset (note : Note)
    (hprocesses : next.processes = world.processes.modify i change)
    (hchange : ∀ mp, (change mp).currentBackoffSec = world.config.initialBackoffSec)
    (hnote : note.resets i = true) (hother : ∀ j, i ≠ j → note.resets j = false)
    (hrestarts : ∀ j, note.restarts j = false) (hnotes : next.notes = note :: world.notes)
    (hentry : next.processes[j]? = some mp') : Backs world next j mp' := by
  rw [hprocesses] at hentry
  rcases getElem?_modify_cases hentry with ⟨rfl, mp, hmp, rfl⟩ | ⟨hij, hmp⟩
  · exact .reset note (hchange mp) hnote hnotes
  · exact .same mp' hmp rfl (Or.inr ⟨note, hother j hij, hrestarts j, hnotes⟩)

end Backs

theorem Act.backs {kind : Kind} {world next : World} (hact : Act kind world next)
    (hkind : kind ≠ .backoff) {j : Nat} {mp' : ManagedProcess}
    (hentry : next.processes[j]? = some mp') : Backs world next j mp' := by
  have hself : ∀ i : Nat, (i == i) = true := fun i => beq_self_eq_true i
  have hother : ∀ {i : Nat}, ∀ j, i ≠ j → (i == j) = false :=
    fun j hij => beq_eq_false_iff_ne.mpr hij
  cases hact with
  | fork _ _ i mp pid startTime =>
      exact Backs.of_modify (world.forkSucceeded_processes i mp.name pid startTime) (fun _ => rfl)
        (fun _ => Or.inr ⟨_, rfl, rfl, world.forkSucceeded_notes i mp.name pid startTime⟩) hentry
  | reset _ i mp =>
      exact Backs.of_reset (.manualReset i) (world.resetForStart_processes i mp.name)
        (fun _ => rfl) (hself i) hother (fun _ => rfl) (world.resetForStart_notes i mp.name) hentry
  | resetEntries =>
      simp only [World.resetEntries, World.note, List.getElem?_map,
        Option.map_eq_some_iff] at hentry
      obtain ⟨mp, hmp, rfl⟩ := hentry
      exact .reset .manualResetAll rfl rfl rfl
  | resetBackoff _ i mp =>
      exact Backs.of_reset (.uptimeReset i mp.state world.ros) rfl (fun _ => rfl) (hself i) hother
        (fun _ => rfl) rfl hentry
  | countRestart | growBackoff => exact absurd rfl hkind
  | permitRestart | markRunning | requestStop =>
      exact Backs.of_modify rfl (fun _ => rfl) (fun _ => Or.inl rfl) hentry
  | forkFail | forceKill | reapStopped | reapCrashed | giveUp =>
      exact Backs.of_modify rfl (fun _ => rfl) (fun _ => Or.inr ⟨_, rfl, rfl, rfl⟩) hentry
  | _ => exact Backs.of_same rfl rfl hentry

/-! ## One entry -/

theorem restartsSince_cons {i : Nat} {note : Note} (hreset : note.resets i = false)
    (hrestart : note.restarts i = false) (notes : List Note) :
    restartsSince i (note :: notes) = restartsSince i notes := by
  simp [restartsSince, hreset, hrestart]

theorem SameRestarts.restartsSince_eq {i : Nat} {earlier later : List Note}
    (h : SameRestarts i earlier later) : restartsSince i later = restartsSince i earlier := by
  rcases h with rfl | ⟨note, hreset, hrestart, rfl⟩
  · rfl
  · exact restartsSince_cons hreset hrestart earlier

/-- Without a reset among the new notes the count does not go down. -/
theorem restartsSince_le {i : Nat} {new : List Note} (hnew : ∀ note ∈ new, note.resets i = false)
    (notes : List Note) : restartsSince i notes ≤ restartsSince i (new ++ notes) := by
  induction new with
  | nil => exact Nat.le_refl _
  | cons note rest ih =>
      have hrest := ih fun later hlater => hnew later (List.mem_cons_of_mem note hlater)
      rw [List.cons_append, restartsSince, if_neg (by simp [hnew note List.mem_cons_self])]
      split
      · exact Nat.le_succ_of_le hrest
      · exact hrest

/-- What an entry holds of its last turn, and its backoff. -/
structure Paces (config : Config) (i : Nat) (mp : ManagedProcess) (notes : List Note) : Prop where
  backoff : mp.currentBackoffSec = config.delay (restartsSince i notes)
  rising : mp.state.rising → ∃ time, mp.startTime = ⟨time, .rosTime⟩ ∧
    lastTurn i notes = some (.started i time)
  failed : mp.state = .restarting → ∃ failure time, mp.crashTime = ⟨time, .rosTime⟩ ∧
    lastTurn i notes = some failure ∧ failure.FailedAt i time

namespace Paces

variable {config : Config} {i : Nat} {mp mp' : ManagedProcess} {notes later : List Note}

/-- The last turn of the entry is the same. -/
theorem of_sameLife (h : Paces config i mp notes)
    (hbackoff : mp'.currentBackoffSec = config.delay (restartsSince i later))
    (hlast : lastTurn i later = lastTurn i notes) (hsame : SameLife mp mp') :
    Paces config i mp' later where
  backoff := hbackoff
  rising hrising := by
    rw [hsame.startTime, hlast]
    exact h.rising (hsame.rising hrising)
  failed hfailed := by
    rw [hsame.crashTime, hlast]
    have hstate := hsame.ended (Or.inr hfailed)
    exact h.failed (hstate ▸ hfailed)

/-- The entry has just taken a turn. -/
theorem of_turned {note : Note} (hturned : Turned i mp note)
    (hbackoff : mp.currentBackoffSec = config.delay (restartsSince i (note :: notes))) :
    Paces config i mp (note :: notes) := by
  have hlast : note.isLife i = true → lastTurn i (note :: notes) = some note :=
    fun hlife => List.find?_cons_of_pos (by simp [hlife])
  have hself : (i == i) = true := beq_self_eq_true i
  cases hturned with
  | started time hstate htime =>
      refine ⟨hbackoff, fun _ => ⟨time, htime, hlast hself⟩, fun hfailed => ?_⟩
      rw [hstate] at hfailed
      cases hfailed
  | forkFailed error time hstate htime hreason =>
      refine ⟨hbackoff, fun hrising => ?_, fun _ => ⟨_, time, htime, hlast hself, rfl, rfl⟩⟩
      simp [ProcessState.rising, hstate] at hrising
  | stopped status hstate =>
      refine ⟨hbackoff, fun hrising => ?_, fun hfailed => ?_⟩
      · simp [ProcessState.rising, hstate] at hrising
      · rw [hstate] at hfailed
        cases hfailed
  | crashed status time hstate htime =>
      refine ⟨hbackoff, fun hrising => ?_, fun _ => ⟨_, time, htime, hlast hself, rfl, rfl⟩⟩
      simp [ProcessState.rising, hstate] at hrising
  | forceKilled hstate =>
      refine ⟨hbackoff, fun hrising => ?_, fun hfailed => ?_⟩
      · simp [ProcessState.rising, hstate] at hrising
      · rw [hstate] at hfailed
        cases hfailed

end Paces

/-! ## All entries -/

structure Pacing (config : Config) (world : World) : Prop where
  configured : world.config = config
  entries : ∀ i mp, world.processes[i]? = some mp → Paces config i mp world.notes
  schedule : Justified (Schedule config) world.notes

/-- What takes a backoff back is no restart. -/
theorem Backs.not_restarts {world next : World} {i : Nat} {mp' : ManagedProcess}
    (h : Backs world next i mp') {note : Note} (hnotes : next.notes = note :: world.notes) :
    note.restarts i = false := by
  cases h with
  | same mp _ _ hsame =>
      rcases hsame with hnone | ⟨other, _, hrestarts, hother⟩
      · exact absurd (hnone.symm.trans hnotes).symm (List.cons_ne_self _ _)
      · obtain rfl := (List.cons.inj (hother.symm.trans hnotes)).1
        exact hrestarts
  | reset other _ hreset hother =>
      obtain rfl := (List.cons.inj (hother.symm.trans hnotes)).1
      cases other <;> first | rfl | cases hreset

theorem lastTurn_cons {i : Nat} {note : Note} (hlife : note.isLife i = false)
    (hrestarts : note.restarts i = false) (notes : List Note) :
    lastTurn i (note :: notes) = lastTurn i notes :=
  List.find?_cons_of_neg (by simp [hlife, hrestarts])

theorem SameTurns.lastTurn_eq {i : Nat} {earlier later : List Note}
    (h : SameTurns i earlier later)
    (hrestarts : ∀ note, later = note :: earlier → note.restarts i = false) :
    lastTurn i later = lastTurn i earlier := by
  rcases h with rfl | ⟨note, hturn, rfl⟩
  · rfl
  · refine lastTurn_cons ?_ (hrestarts note rfl) earlier
    by_contra hlife
    have hsome := Note.isLife_isTurn (by simpa using hlife)
    rw [hsome] at hturn
    cases hturn

section Pacing

variable {config : Config} {world next : World} {kind : Kind}

theorem Act.schedule (hact : Act kind world next) (hkind : kind ≠ .backoff)
    (h : Pacing config world) : Justified (Schedule config) next.notes := by
  cases hact with
  | resetBackoff _ i mp hmp hstate huptime =>
      obtain ⟨started, htime, hlast⟩ := (h.entries i mp hmp).rising (Or.inr hstate)
      obtain ⟨uptime, hread, hlong⟩ := huptime
      refine ⟨⟨hstate, started, hlast, ?_⟩, h.schedule⟩
      rw [htime] at hread
      have huptime : world.ros - started = uptime := Option.some_inj.mp hread
      rw [h.configured] at hlong
      omega
  | fork _ _ i mp pid startTime =>
      rw [World.forkSucceeded_notes]
      exact ⟨trivial, h.schedule⟩
  | reset _ i mp =>
      rw [World.resetForStart_notes]
      exact ⟨trivial, h.schedule⟩
  | countRestart => exact absurd rfl hkind
  | forkFail | resetEntries | forceKill | reapStopped | reapCrashed | giveUp =>
      exact ⟨trivial, h.schedule⟩
  | _ => exact h.schedule

/-- Everything but an automatic restart. -/
theorem Act.pacing (hact : Act kind world next) (hkind : kind ≠ .backoff)
    (hlegal : config.initialBackoffSec ≤ config.maxBackoffSec) (h : Pacing config world) :
    Pacing config next := by
  refine ⟨hact.config_eq.trans h.configured, fun i mp' hentry => ?_, hact.schedule hkind h⟩
  have hbacks := hact.backs hkind hentry
  have hrestarts : ∀ note, next.notes = note :: world.notes → note.restarts i = false :=
    fun note hnotes => hbacks.not_restarts hnotes
  have hbackoff : mp'.currentBackoffSec = config.delay (restartsSince i next.notes) := by
    cases hbacks with
    | same mp hmp hsame hnotes =>
        rw [hsame, hnotes.restartsSince_eq]
        exact (h.entries i mp hmp).backoff
    | reset note hinitial hreset hnotes =>
        rw [hinitial, hnotes, restartsSince, if_pos hreset, h.configured]
        exact (delay_zero hlegal).symm
  cases hact.lives hentry with
  | quiet mp hmp hsame _ hnotes =>
      exact (h.entries i mp hmp).of_sameLife hbackoff (hnotes.lastTurn_eq hrestarts) hsame
  | gaveUp mp hmp hsame _ _ hnotes =>
      refine (h.entries i mp hmp).of_sameLife hbackoff ?_ hsame
      rw [hnotes]
      exact lastTurn_cons rfl rfl world.notes
  | turned mp hmp note hturned hnotes =>
      rw [hnotes] at hbackoff ⊢
      exact Paces.of_turned hturned hbackoff

theorem acts_pacing {allow : Kind → Prop} (hallow : ∀ kind, allow kind → kind ≠ .backoff)
    (hlegal : config.initialBackoffSec ≤ config.maxBackoffSec)
    (hacts : Acts Act allow world next) (h : Pacing config world) : Pacing config next :=
  hacts.keeps (Pacing config)
    (fun kind _ _ hkind hact hstate => hact.pacing (hallow kind hkind) hlegal hstate) h

end Pacing

/-! ## Automatic restarts -/

/-- The clock has been read, and will not run backwards. -/
structure Forward (reading : Int) (world : World) : Prop where
  read : reading ≤ world.ros
  script : ∀ beat ∈ world.script, beat.Monotone

/-- Neither the bookkeeping of `shutdown_all` nor the beginning of a callback. -/
def Ongoing (kind : Kind) : Prop := kind ≠ .stopAll ∧ ∀ script, kind ≠ .enter script

theorem Act.forward {kind : Kind} {world next : World} (hact : Act kind world next)
    (hkind : Ongoing kind) {reading : Int} (h : Forward reading world) : Forward reading next := by
  cases hact with
  | env =>
      exact ⟨h.read.trans (World.ros_le_interact h.script),
        fun beat hbeat => h.script beat (List.mem_of_mem_tail hbeat)⟩
  | enter _ script => exact absurd rfl (hkind.2 script)
  | fork | reset => exact ⟨by simpa using h.read, by simpa using h.script⟩
  | _ => exact ⟨h.read, h.script⟩

theorem acts_forward {allow : Kind → Prop} (hallow : ∀ kind, allow kind → Ongoing kind)
    {world next : World} (hacts : Acts Act allow world next) {reading : Int}
    (h : Forward reading world) : Forward reading next :=
  hacts.keeps (Forward reading) (fun kind _ _ hkind hact => hact.forward (hallow kind hkind)) h

namespace Turned

variable {i : Nat} {mp : ManagedProcess} {note : Note}

theorem rebacked (h : Turned i mp note) (backoff : Int) :
    Turned i { mp with currentBackoffSec := backoff } note := by
  cases h with
  | started time hstate htime => exact .started time hstate htime
  | forkFailed error time hstate htime hreason => exact .forkFailed error time hstate htime hreason
  | stopped status hstate hcode hreason => exact .stopped status hstate hcode hreason
  | crashed status time hstate htime hcode hreason =>
      exact .crashed status time hstate htime hcode hreason
  | forceKilled hstate => exact .forceKilled hstate

theorem quiet_resets (h : Turned i mp note) {j : Nat} : note.resets j = false := by
  cases h <;> rfl

theorem quiet_restarts (h : Turned i mp note) {j : Nat} : note.restarts j = false := by
  cases h <;> rfl

theorem other (h : Turned i mp note) {j : Nat} (hij : i ≠ j) : note.isLife j = false := by
  cases h <;> exact beq_eq_false_iff_ne.mpr hij

theorem schedule (h : Turned i mp note) (config : Config) (earlier : List Note) :
    Schedule config note earlier := by
  cases h <;> trivial

end Turned

namespace World

/-- `start_process` gives its entry a turn, and leaves its backoff alone. -/
theorem startProcess_turn {world : World} {i : Nat} {mp : ManagedProcess}
    (hentry : world.processes[i]? = some mp) :
    ∃ change note, (∀ mp, Turned i (change mp) note) ∧
      (∀ mp, (change mp).currentBackoffSec = mp.currentBackoffSec) ∧
      (startProcess i world).processes = world.processes.modify i change ∧
      (startProcess i world).notes = note :: world.notes := by
  have hprocesses : (killZombie mp world).processes = world.processes :=
    killZombie_frame World.processes (fun _ => rfl) (fun _ _ => rfl) mp world
  have hnotes : (killZombie mp world).notes = world.notes :=
    killZombie_frame World.notes (fun _ => rfl) (fun _ _ => rfl) mp world
  rw [startProcess, onEntry_some hentry]
  dsimp only
  generalize killZombie mp world = cleared at hprocesses hnotes
  have hfailed : ∃ change note, (∀ mp, Turned i (change mp) note) ∧
      (∀ mp, (change mp).currentBackoffSec = mp.currentBackoffSec) ∧
      (forkFailed i cleared.beat.error cleared.interact.interact).processes =
        world.processes.modify i change ∧
      (forkFailed i cleared.beat.error cleared.interact.interact).notes = note :: world.notes := by
    rw [← hprocesses, ← hnotes]
    refine ⟨_, _, ?_, ?_, rfl, rfl⟩
    · exact fun _ => .forkFailed _ _ rfl rfl rfl
    · exact fun _ => rfl
  split
  next => exact hfailed
  next pid _ =>
    split
    next =>
      rw [forkSucceeded_processes, forkSucceeded_notes, ← hprocesses, ← hnotes]
      split <;>
      · refine ⟨_, _, ?_, ?_, rfl, rfl⟩
        · exact fun _ => .started _ rfl rfl
        · exact fun _ => rfl
    next => exact hfailed

/-- A backoff restart is noted, gives its entry a turn, and lengthens its backoff. -/
theorem restartEntry_turn {world : World} {i : Nat} {mp : ManagedProcess}
    (hentry : world.processes[i]? = some mp) :
    ∃ change note, (∀ mp, Turned i (change mp) note) ∧
      (∀ mp, (change mp).currentBackoffSec =
        min (mp.currentBackoffSec * 2) (restartEntry i world).config.maxBackoffSec) ∧
      (restartEntry i world).processes = world.processes.modify i change ∧
      (restartEntry i world).notes = note :: .restarting i world.ros :: world.notes := by
  have hcounted : (world.countRestart i).processes[i]? =
      some { mp with restartCount := mp.restartCount + 1 } := getElem?_modify_self hentry
  obtain ⟨change, note, hturned, hbackoff, hprocesses, hnotes⟩ := startProcess_turn hcounted
  have hcount : (world.countRestart i).processes = world.processes.modify i fun mp =>
      { mp with restartCount := mp.restartCount + 1 } := rfl
  have hgrown : (restartEntry i world).processes =
      (startProcess i (world.countRestart i)).processes.modify i fun mp => { mp with
        currentBackoffSec := min (mp.currentBackoffSec * 2)
          (restartEntry i world).config.maxBackoffSec } := rfl
  rw [hprocesses, hcount, List.modify_modify_eq, List.modify_modify_eq] at hgrown
  refine ⟨_, note, fun mp => (hturned _).rebacked _, fun mp => ?_, hgrown, hnotes⟩
  exact congrArg (fun backoff => min (backoff * 2) _) (hbackoff _)

end World

section Restarts

variable {config : Config} {world : World} {i : Nat} {mp : ManagedProcess}

/-- The entry has waited for its backoff. -/
theorem restartEntry_pacing (hpos : 0 ≤ config.maxBackoffSec) (h : Pacing config world)
    (hentry : world.processes[i]? = some mp) (hstate : mp.state = .restarting) {reading : Int}
    (hread : reading ≤ world.ros) {elapsed : Int}
    (helapsed : (⟨reading, .rosTime⟩ : Time).sub? mp.crashTime = some elapsed)
    (hdue : mp.currentBackoffSec ≤ elapsed)
    (hconfig : (World.restartEntry i world).config = config) :
    Pacing config (World.restartEntry i world) := by
  obtain ⟨change, note, hturned, hbackoff, hprocesses, hnotes⟩ := World.restartEntry_turn hentry
  rw [hconfig] at hbackoff
  refine ⟨hconfig, fun j mp' hmp' => ?_, ?_⟩
  · rw [hnotes]
    rw [hprocesses] at hmp'
    rcases getElem?_modify_cases hmp' with ⟨rfl, same, hsame, rfl⟩ | ⟨hij, hkept⟩
    · -- One restart more, and a delay that has been doubled once more.
      refine Paces.of_turned (hturned same) ?_
      have hself : Note.restarts i (.restarting i world.ros) = true := beq_self_eq_true i
      rw [restartsSince_cons (hturned same).quiet_resets (hturned same).quiet_restarts, hbackoff,
        (h.entries i same hsame).backoff, restartsSince, if_neg (by simp [Note.resets]),
        if_pos hself]
      exact (delay_succ hpos _).symm
    · have hother : Note.restarts j (.restarting i world.ros) = false :=
        beq_eq_false_iff_ne.mpr hij
      refine (h.entries j mp' hkept).of_sameLife ?_ ?_ (SameLife.refl mp')
      · rw [restartsSince_cons (hturned mp).quiet_resets (hturned mp).quiet_restarts,
          restartsSince_cons rfl hother]
        exact (h.entries j mp' hkept).backoff
      · rw [lastTurn_cons ((hturned mp).other hij) (hturned mp).quiet_restarts,
          lastTurn_cons rfl hother]
  · have hpaces := h.entries i mp hentry
    obtain ⟨failure, failed, htime, hlast, hfailed⟩ := hpaces.failed hstate
    rw [hnotes]
    refine ⟨(hturned mp).schedule config _, ⟨failure, failed, hlast, hfailed, ?_⟩, h.schedule⟩
    rw [htime] at helapsed
    have hwaited : reading - failed = elapsed := Option.some_inj.mp helapsed
    rw [← hpaces.backoff]
    omega

theorem handleRestarts_pacing (hpos : 0 ≤ config.maxBackoffSec)
    (hscript : ∀ beat ∈ world.script, beat.Monotone) (hidle : world.deadline = none)
    (h : Pacing config world) : Pacing config (World.handleRestarts world) := by
  have hordinary : ∀ kind, Ongoing kind → Ordinary kind := fun _ hkind => hkind.1
  have hplain : ∀ {kind : Kind}, kind ≠ .stopAll → (∀ script, kind ≠ .enter script) →
      Ongoing kind := fun hstop henter => ⟨hstop, henter⟩
  have hread : Pacing config world.interact := ⟨h.configured, h.entries, h.schedule⟩
  refine (World.each_keeps (fun later => later.deadline = none ∧
    Forward world.interact.ros later ∧ Pacing config later) ?_ _ ?_).2.2
  · rintro i later ⟨hidle, hforward, hpacing⟩
    cases hentry : later.processes[i]? with
    | none =>
        rw [World.onEntry_none hentry]
        exact ⟨hidle, hforward, hpacing⟩
    | some mp =>
        rw [World.onEntry_some hentry]
        split
        next => exact ⟨hidle, hforward, hpacing⟩
        next hstate =>
          split
          next => exact ⟨hidle, hforward, hpacing⟩
          next hauto =>
            split
            next =>
              exact ⟨hidle, ⟨hforward.read, hforward.script⟩,
                hpacing.configured, hpacing.entries, hpacing.schedule⟩
            next elapsed helapsed =>
              split
              next hdue =>
                have hrestarting := not_not.mp hstate
                have hacts : Acts Act Ongoing later (World.restartEntry i later) :=
                  World.restartEntry_acts (hplain (by simp) (by simp)) (hplain (by simp) (by simp))
                    (hplain (by simp) (by simp)) hordinary hidle hentry hrestarting
                    (by simpa using hauto) fun _ => hplain (by simp) (by simp)
                exact ⟨(acts_deadline hordinary hacts).trans hidle,
                  acts_forward (fun _ hkind => hkind) hacts hforward,
                  restartEntry_pacing hpos hpacing hentry hrestarting hforward.read helapsed hdue
                    ((acts_config hacts).trans hpacing.configured)⟩
              next => exact ⟨hidle, hforward, hpacing⟩
  · exact ⟨hidle, ⟨Int.le_refl _, fun beat hbeat => hscript beat (List.mem_of_mem_tail hbeat)⟩,
      hread⟩

end Restarts

/-! ## Runs -/

/-- What a tick does besides `handle_restarts`. -/
def Around : Kind → Prop
  | .routine | .advance | .giveUp => True
  | _ => False

theorem Around.ongoing (kind : Kind) (hkind : Around kind) : Ongoing kind := by
  constructor
  · rintro rfl
    exact hkind
  · rintro script rfl
    exact hkind

theorem Around.ne_backoff (kind : Kind) (hkind : Around kind) : kind ≠ .backoff := by
  rintro rfl
  exact hkind

theorem World.beforeRestarts_acts (world : World) :
    Acts Act Around world (beforeRestarts world) :=
  andThen_acts (andThen_acts (andThen_acts (reapChildren_acts trivial world)
    fun _ => checkStopTimeouts_acts trivial _) fun _ => checkStarted_acts trivial trivial _)
    fun _ => checkOdinHealth_acts trivial fun _ => trivial

section Runs

variable {config : Config} {world : World}

theorem onTimer_pacing (hpos : 0 ≤ config.maxBackoffSec)
    (hlegal : config.initialBackoffSec ≤ config.maxBackoffSec)
    (hscript : ∀ beat ∈ world.script, beat.Monotone) (hidle : world.deadline = none)
    (hquiet : world.signalReceived = false) (h : Pacing config world) :
    Pacing config (World.onTimer world) := by
  have hordinary : ∀ kind, Around kind → Ordinary kind :=
    fun kind hkind => (Around.ongoing kind hkind).1
  have hacts := world.beforeRestarts_acts
  have hforward : Forward world.ros (World.beforeRestarts world) :=
    acts_forward Around.ongoing hacts ⟨Int.le_refl _, hscript⟩
  have hbefore := acts_pacing Around.ne_backoff hlegal hacts h
  have hidle' := (acts_deadline hordinary hacts).trans hidle
  have hafter : Pacing config ((World.beforeRestarts world).andThen World.handleRestarts) ∧
      ((World.beforeRestarts world).andThen World.handleRestarts).deadline = none := by
    unfold World.andThen
    split
    next =>
      refine ⟨handleRestarts_pacing hpos hforward.script hidle' hbefore, ?_⟩
      have hrestarts : Acts Act Ordinary (World.beforeRestarts world)
          (World.handleRestarts (World.beforeRestarts world)) :=
        World.handleRestarts_acts (by simp [Ordinary]) (by simp [Ordinary]) (by simp [Ordinary])
          (fun _ hkind => hkind) hidle' fun _ _ => by simp [Ordinary]
      exact (acts_deadline (fun _ hkind => hkind) hrestarts).trans hidle'
    next => exact ⟨hbefore, hidle'⟩
  unfold World.onTimer
  rw [if_neg (by simp [hquiet])]
  refine acts_pacing Around.ne_backoff hlegal ?_ hafter.1
  exact World.andThen_acts (Acts.refl _) fun _ => World.andThen_acts
    (World.handlePending_acts trivial trivial hordinary hafter.2)
    fun _ => World.publishStatus_acts trivial _

theorem step_pacing (hpos : 0 ≤ config.maxBackoffSec)
    (hlegal : config.initialBackoffSec ≤ config.maxBackoffSec) {label : Label}
    (hready : Ready world) (hlabel : label.Monotone) (h : Pacing config world) :
    Pacing config (step world label) := by
  by_cases htick : label.request = .timer ∧ world.signalReceived = false
  · unfold step
    split
    next hup =>
      rw [htick.1]
      have hentered : Pacing config (world.entered label) := ⟨h.configured, h.entries, h.schedule⟩
      exact onTimer_pacing hpos hlegal hlabel (hready.idle hup).1 htick.2 hentered
    next => exact h
  · refine acts_pacing ?_ hlegal (step_acts label hready) h
    rintro kind hkind rfl
    exact htick hkind

theorem pacing_initial (hlegal : config.initialBackoffSec ≤ config.maxBackoffSec)
    (nodes : List ProcessNode) (ros steady : Int) :
    Pacing config (initial config nodes ros steady) where
  configured := rfl
  entries i mp hmp := by
    obtain ⟨hpid, hstate, hstopping⟩ := initial_entries (List.mem_of_getElem? hmp)
    refine ⟨?_, fun hrising => ?_, fun hfailed => ?_⟩
    · obtain ⟨node, _, rfl⟩ := List.mem_map.mp (List.mem_of_getElem? hmp)
      exact (delay_zero hlegal).symm
    · simp [ProcessState.rising, hstate] at hrising
    · rw [hstate] at hfailed
      cases hfailed
  schedule := trivial

theorem Pacing.pacedBy (hinitial : 0 ≤ config.initialBackoffSec)
    (hlegal : config.initialBackoffSec ≤ config.maxBackoffSec) (h : Pacing config world) :
    PacedBy config world where
  bounded mp hmp := by
    obtain ⟨i, hi⟩ := List.mem_iff_getElem?.mp hmp
    rw [(h.entries i mp hi).backoff]
    exact ⟨le_delay hinitial hlegal _, delay_le _⟩
  inStep i mp hmp := (h.entries i mp hmp).backoff
  schedule := h.schedule

end Runs

/-! ## Resets -/

/-- The actions that note a reset of the entry. -/
def Note.ResetIn (i : Nat) (kind : Kind) : Note → Prop
  | .uptimeReset _ _ _ => kind = .advance
  | .manualReset _ => kind = .manual i ∨ kind = .displace i
  | .manualResetAll => kind = .manualAll
  | _ => False

theorem Act.resets {kind : Kind} {world next : World} (hact : Act kind world next) :
    ∃ new, next.notes = new ++ world.notes ∧
      ∀ i, ∀ note ∈ new, note.resets i = true → note.ResetIn i kind := by
  have hone : ∀ {note : Note} {next : World}, next.notes = note :: world.notes →
      (∀ i, note.resets i = true → note.ResetIn i kind) →
      ∃ new, next.notes = new ++ world.notes ∧
        ∀ i, ∀ note ∈ new, note.resets i = true → note.ResetIn i kind := by
    intro note next hnotes hnote
    refine ⟨[note], hnotes, fun i other hother => ?_⟩
    rw [List.mem_singleton.mp hother]
    exact hnote i
  cases hact with
  | fork _ _ i mp pid startTime =>
      exact hone (world.forkSucceeded_notes i mp.name pid startTime) fun _ hreset => by cases hreset
  | reset _ i mp =>
      refine hone (world.resetForStart_notes i mp.name) fun j hreset => ?_
      rw [← show i = j from eq_of_beq hreset]
      split
      · exact Or.inr rfl
      · exact Or.inl rfl
  | resetEntries | resetBackoff => exact hone rfl fun _ _ => rfl
  | forkFail | forceKill | reapStopped | reapCrashed | giveUp | countRestart =>
      exact hone rfl fun _ hreset => by cases hreset
  | _ => exact ⟨[], rfl, fun _ _ hnote => absurd hnote List.not_mem_nil⟩

theorem acts_resets {allow : Kind → Prop} {world next : World}
    (hacts : Acts Act allow world next) : ∃ new, next.notes = new ++ world.notes ∧
      ∀ i, ∀ note ∈ new, note.resets i = true → ∃ kind, allow kind ∧ note.ResetIn i kind := by
  refine hacts.keeps (fun state => ∃ new, state.notes = new ++ world.notes ∧
    ∀ i, ∀ note ∈ new, note.resets i = true → ∃ kind, allow kind ∧ note.ResetIn i kind) ?_
    ⟨[], rfl, fun _ _ hnote => absurd hnote List.not_mem_nil⟩
  rintro kind state later hkind hact ⟨new, hnotes, hnew⟩
  obtain ⟨newer, hlater, hnewer⟩ := hact.resets
  refine ⟨newer ++ new, by rw [hlater, hnotes, List.append_assoc], fun i note hnote hreset => ?_⟩
  rcases List.mem_append.mp hnote with hnote | hnote
  · exact ⟨kind, hkind, hnewer i note hnote hreset⟩
  · exact hnew i note hnote hreset

/-- The callback of a label resets what it is meant to. -/
theorem Note.ResetIn.resetBy {world : World} {label : Label} {i : Nat} {kind : Kind} {note : Note}
    (hkind : Allowed world label kind) (h : note.ResetIn i kind) : ResetBy world label i note := by
  cases note with
  | uptimeReset =>
      obtain rfl : kind = .advance := h
      exact hkind
  | manualReset =>
      rcases h with rfl | rfl
      · obtain ⟨name, hrequest, hfind⟩ := hkind
        exact ⟨name, hrequest.imp_right And.left, hfind⟩
      · obtain ⟨name, mp, hrequest, hfind, _⟩ := hkind
        exact ⟨name, Or.inl hrequest, hfind⟩
  | manualResetAll =>
      obtain rfl : kind = .manualAll := h
      exact hkind
  | _ => exact h

/-- A shorter backoff belongs to fewer restarts, and so to a reset. -/
theorem Pacing.resetsRarely {config : Config} {world : World} {label : Label}
    (hinitial : 0 ≤ config.initialBackoffSec) (hready : Ready world) (h : Pacing config world)
    (hnext : Pacing config (step world label)) : ResetsRarely world label := by
  obtain ⟨new, hnotes, hnew⟩ := acts_resets (step_acts label hready)
  refine ⟨new, hnotes, fun i => ⟨fun note hnote hreset => ?_, fun mp mp' hmp hmp' hless => ?_⟩⟩
  · obtain ⟨kind, hkind, hin⟩ := hnew i note hnote hreset
    exact hin.resetBy hkind
  · by_contra hnone
    have hquiet : ∀ note ∈ new, note.resets i = false := fun note hnote =>
      Bool.eq_false_iff.mpr fun hreset => hnone ⟨note, hnote, hreset⟩
    have hmore := restartsSince_le hquiet world.notes
    rw [← hnotes] at hmore
    rw [(h.entries i mp hmp).backoff, (hnext.entries i mp' hmp').backoff] at hless
    exact absurd hless (Int.not_lt.mpr (delay_mono hinitial hmore))

/-! ## The schedule of a run -/

theorem run_paced (config : Config) (nodes : List ProcessNode) (ros steady : Int)
    (labels : List Label) (hinitial : 0 < config.initialBackoffSec)
    (hlegal : config.initialBackoffSec ≤ config.maxBackoffSec)
    (hclock : ∀ label ∈ labels, label.Monotone) :
    PacedBy config (run step (initial config nodes ros steady) labels) ∧
      EveryStep step ResetsRarely (initial config nodes ros steady) labels := by
  have hpos : 0 ≤ config.maxBackoffSec := hinitial.le.trans hlegal
  have hstep : ∀ world label, Ready world ∧ Pacing config world → label.Monotone →
      (Ready (step world label) ∧ Pacing config (step world label)) ∧ ResetsRarely world label := by
    rintro world label ⟨hready, hpacing⟩ hlabel
    have hnext := step_pacing hpos hlegal hready hlabel hpacing
    exact ⟨⟨step_ready label hready, hnext⟩, hpacing.resetsRarely hinitial.le hready hnext⟩
  have hstart : Ready (initial config nodes ros steady) ∧
      Pacing config (initial config nodes ros steady) :=
    ⟨ready_initial config nodes ros steady, pacing_initial hlegal nodes ros steady⟩
  have hlabels := everyStep_of_forall step hclock (initial config nodes ros steady)
  refine ⟨Pacing.pacedBy hinitial.le hlegal (run_keeps step
    (fun world => Ready world ∧ Pacing config world)
    (fun world label hworld hlabel => (hstep world label hworld hlabel).1) hstart hlabels).2, ?_⟩
  exact EveryStep.promises step (fun world => Ready world ∧ Pacing config world) hstep hstart
    hlabels

/-- The child exits, the fork of the next one fails twice, and the entry is started again. -/
def faltering : List Label :=
  failedAgain ++ [⟨.timer, [{}, {}, {}, { elapsed := 2000000000 }, {}, { error := "EAGAIN" }]⟩,
    ⟨.start "mavros", [{}, { fork := some 102 }]⟩]

set_option maxRecDepth 4000 in
theorem paced_faltering :
    PacedBy {} (run step (initial {} [mavros] 0 0) faltering) ∧
      EveryStep step ResetsRarely (initial {} [mavros] 0 0) faltering :=
  run_paced {} [mavros] 0 0 faltering (by decide) (by decide) (by decide)

end AcflyRos.Daemon

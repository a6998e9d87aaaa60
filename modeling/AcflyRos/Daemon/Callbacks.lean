import AcflyRos.Foundation.Table
import AcflyRos.Daemon.Action

/-! # Callbacks are sequences of actions

One lemma for each function of the supervisor: what it does is a sequence of the
atomic actions, of the kinds it is responsible for. No other proof looks inside a
callback for what it may do on the way.
-/

namespace AcflyRos.Daemon

open AcflyRos.Transition

/-- Only routine actions. -/
def Routine (kind : Kind) : Prop := kind = .routine

/-- Everything except the bookkeeping of `shutdown_all`. -/
def Ordinary (kind : Kind) : Prop := kind ≠ .stopAll

theorem Routine.ordinary (kind : Kind) (hkind : Routine kind) : Ordinary kind := by
  subst hkind
  exact Kind.noConfusion

namespace Act

variable {kind : Kind} {world next : World}

/-- Only `shutdown_all` touches its deadline. -/
theorem deadline_eq (hact : Act kind world next) (hkind : Ordinary kind) :
    next.deadline = world.deadline := by
  cases hact with
  | shuttingDown | setDeadline | clearDeadline => exact absurd rfl hkind
  | fork | reset => simp
  | _ => rfl

/-- Only `shutdown_all` and its callers touch `shutting_down_`. -/
theorem shuttingDown_eq (hact : Act kind world next) (hkind : Ordinary kind) :
    next.shuttingDown = world.shuttingDown := by
  cases hact with
  | shuttingDown | setDeadline | clearDeadline => exact absurd rfl hkind
  | fork | reset => simp
  | _ => rfl

end Act

section Ordinary

variable {allow : Kind → Prop} {world next : World}

theorem acts_deadline (hordinary : ∀ kind, allow kind → Ordinary kind)
    (hacts : Acts Act allow world next) : next.deadline = world.deadline :=
  hacts.frame World.deadline fun kind _ _ hkind hact => hact.deadline_eq (hordinary kind hkind)

theorem acts_shuttingDown (hordinary : ∀ kind, allow kind → Ordinary kind)
    (hacts : Acts Act allow world next) : next.shuttingDown = world.shuttingDown :=
  hacts.frame World.shuttingDown fun kind _ _ hkind hact =>
    hact.shuttingDown_eq (hordinary kind hkind)

end Ordinary

namespace World

variable {allow : Kind → Prop}

/-! ## Sequencing -/

theorem interact_acts (hroutine : allow .routine) (world : World) :
    Acts Act allow world world.interact :=
  Acts.single hroutine (.env world)

theorem setMode_acts (hroutine : allow .routine) (world : World) (mode : Mode) :
    Acts Act allow world { world with mode } :=
  Acts.single hroutine (.control world mode world.response world.signalReceived)

theorem respond_acts (hroutine : allow .routine) (world : World) (success : Bool)
    (message : String) : Acts Act allow world (world.respond success message) :=
  Acts.single hroutine (.control world world.mode _ world.signalReceived)

theorem andThen_acts {world : World} {next : World → World} {start : World}
    (hstart : Acts Act allow start world)
    (hnext : world.mode = .up → Acts Act allow world (next world)) :
    Acts Act allow start (world.andThen next) := by
  unfold andThen
  split
  next hup => exact hstart.trans (hnext hup)
  next => exact hstart

/-- A loop over entries under an invariant that its body keeps. -/
theorem each_acts (invariant : World → Prop) {body : Nat → World → World}
    (hbody : ∀ i world, invariant world →
      Acts Act allow world (body i world) ∧ invariant (body i world))
    (order : List Nat) {world : World} (hworld : invariant world) :
    Acts Act allow world (world.each order body) ∧ invariant (world.each order body) := by
  apply Acts.foldl invariant ?_ order hworld
  intro world i hinv
  unfold andThen
  split
  · exact hbody i world hinv
  · exact ⟨Acts.refl world, hinv⟩

/-- An invariant that the body of a loop over entries keeps. -/
theorem each_keeps (invariant : World → Prop) {body : Nat → World → World}
    (hbody : ∀ i world, invariant world → invariant (body i world)) (order : List Nat)
    {world : World} (hworld : invariant world) : invariant (world.each order body) := by
  refine List.foldlRecOn order _ hworld ?_
  intro world hinv i _
  unfold andThen
  split
  · exact hbody i world hinv
  · exact hinv

/-- A loop over entries outside of `shutdown_all`. -/
theorem each_acts_idle (hordinary : ∀ kind, allow kind → Ordinary kind)
    {body : Nat → World → World}
    (hbody : ∀ i world, world.deadline = none → Acts Act allow world (body i world))
    (order : List Nat) {world : World} (hidle : world.deadline = none) :
    Acts Act allow world (world.each order body) :=
  (each_acts (fun world => world.deadline = none)
    (fun i world hidle => ⟨hbody i world hidle,
      (acts_deadline hordinary (hbody i world hidle)).trans hidle⟩) order hidle).1

/-- A loop over entries that may also run inside of `shutdown_all`. -/
theorem each_acts_any {body : Nat → World → World}
    (hbody : ∀ i world, Acts Act allow world (body i world))
    (order : List Nat) (world : World) : Acts Act allow world (world.each order body) :=
  (each_acts (fun _ => True) (fun i world _ => ⟨hbody i world, trivial⟩)
    order trivial).1

/-- A loop over entries that never leaves the callback settles every entry. -/
theorem each_covers {body : Nat → World → World} (invariant : World → Prop)
    (settled : Nat → World → Prop)
    (hbody : ∀ i world, world.mode = .up → invariant world →
      (body i world).mode = .up ∧ invariant (body i world) ∧ settled i (body i world) ∧
        ∀ other, settled other world → settled other (body i world))
    (order : List Nat) {world : World} (hup : world.mode = .up) (hworld : invariant world) :
    (world.each order body).mode = .up ∧ invariant (world.each order body) ∧
      ∀ i ∈ order, settled i (world.each order body) := by
  have hloop := foldl_covers (fun world i => world.andThen (body i))
    (fun world => world.mode = .up ∧ invariant world) settled ?_ ?_ ?_ order ⟨hup, hworld⟩
  · exact ⟨hloop.1.1, hloop.1.2, hloop.2.2⟩
  · rintro world i ⟨hup, hinv⟩
    simp only [andThen, if_pos hup]
    exact ⟨(hbody i world hup hinv).1, (hbody i world hup hinv).2.1⟩
  · rintro world i ⟨hup, hinv⟩
    simp only [andThen, if_pos hup]
    exact (hbody i world hup hinv).2.2.1
  · rintro world i other ⟨hup, hinv⟩
    simp only [andThen, if_pos hup]
    exact (hbody i world hup hinv).2.2.2 other

theorem onEntry_acts {i : Nat} {body : ManagedProcess → World → World} {world : World}
    (hbody : ∀ mp, world.processes[i]? = some mp → Acts Act allow world (body mp world)) :
    Acts Act allow world (world.onEntry i body) := by
  unfold onEntry
  split
  next => exact Acts.refl world
  next mp hentry => exact hbody mp hentry

/-! ## Starting a process -/

theorem spawnGuard_congr {world other : World} {mp : ManagedProcess} {kind : Kind}
    (hprocesses : other.processes = world.processes) (hguard : world.SpawnGuard mp kind) :
    other.SpawnGuard mp kind := by
  have hdeps := dependenciesRunning_congr mp
    (show other.runStates = world.runStates by rw [runStates, runStates, hprocesses])
  cases kind <;> simp only [SpawnGuard, hdeps] at hguard ⊢ <;> exact hguard

/-- `kill_zombie` spares every managed pid and changes no entry. -/
theorem killZombie_acts (hroutine : allow .routine) (mp : ManagedProcess) (world : World) :
    Acts Act allow world (killZombie mp world) ∧
      (killZombie mp world).processes = world.processes := by
  unfold killZombie
  split
  next => exact ⟨Acts.refl world, rfl⟩
  next pattern _ =>
    refine And.imp_left (interact_acts hroutine world).trans ?_
    refine Acts.foldl (fun after : World => after.processes = world.processes) ?_ _ rfl
    rintro after ⟨pid, cmdline⟩ hprocesses
    dsimp only
    split
    next hzombie =>
      refine ⟨Acts.single hroutine (.zombieKill after pid ?_), hprocesses⟩
      intro managed hmanaged
      simp only [isZombieOf, Bool.and_eq_true, List.all_eq_true, bne_iff_ne] at hzombie
      exact hzombie.1.1.2 managed hmanaged
    next => exact ⟨Acts.refl after, hprocesses⟩

/-- `start_process` forks for an entry that passes the guard, or leaves it in
RESTARTING. -/
theorem startProcess_acts (hroutine : allow .routine) {kind : Kind} (hkind : allow kind)
    {i : Nat} {world : World} (hidle : world.deadline = none)
    (hordinary : ∀ kind, allow kind → Ordinary kind)
    (hguard : ∀ mp, world.processes[i]? = some mp → world.SpawnGuard mp kind) :
    Acts Act allow world (startProcess i world) := by
  unfold startProcess
  apply onEntry_acts
  intro mp hentry
  have hguard := hguard mp hentry
  obtain ⟨hzombie, hprocesses⟩ := killZombie_acts hroutine mp world
  have hdeadline := (acts_deadline hordinary hzombie).trans hidle
  generalize killZombie mp world = cleared at hzombie hprocesses hdeadline
  have hforking : Acts Act allow world cleared.interact :=
    hzombie.trans (interact_acts hroutine cleared)
  have hfailed : Acts Act allow world (forkFailed i cleared.beat.error cleared.interact.interact) :=
    (hforking.trans (interact_acts hroutine _)).tail hkind
      (.forkFail _ kind i mp _ (by rw [← hentry, ← hprocesses]; rfl)
        (spawnGuard_congr hprocesses hguard))
  dsimp only
  split
  next => exact hfailed
  next pid _ =>
    split
    next hfresh =>
      have hread := hforking.trans (interact_acts hroutine _)
      have hentry' : cleared.processes[i]? = some mp := by rw [hprocesses, hentry]
      have hguard' := spawnGuard_congr hprocesses hguard
      by_cases hodin : mp.name = odin
      · rw [if_pos hodin]
        exact (hread.trans (interact_acts hroutine _)).tail hkind
          (.fork _ kind i mp pid _ hentry' (fresh_interact (fresh_interact hfresh))
            (spawnGuard_congr rfl hguard') hdeadline rfl)
      · rw [if_neg hodin]
        exact hread.tail hkind
          (.fork _ kind i mp pid _ hentry' (fresh_interact hfresh)
            (spawnGuard_congr rfl hguard') hdeadline rfl)
    next => exact hfailed

/-! ## Stopping a process -/

theorem requestStop_acts (hroutine : allow .routine) (i : Nat) {world : World}
    (hidle : world.deadline = none) : Acts Act allow world (requestStop i world) := by
  unfold requestStop
  apply onEntry_acts
  intro mp hentry
  split
  next => exact Acts.refl world
  next hpid =>
    exact (interact_acts hroutine world).tail hroutine
      (.requestStop _ i mp hentry (Int.not_le.mp hpid) hidle)

theorem forceKill_acts (hroutine : allow .routine) (i : Nat) (world : World)
    (hguard : ∀ mp, world.processes[i]? = some mp → world.KillGuard mp) :
    Acts Act allow world (forceKill i world) := by
  unfold forceKill
  apply onEntry_acts
  intro mp hentry
  split
  next => exact Acts.refl world
  next hpid =>
    exact Acts.single hroutine
      (.forceKill world i mp hentry (Int.not_le.mp hpid) (hguard mp hentry))

/-! ## The steps of the timer -/

theorem reapOne_acts (hroutine : allow .routine) {child : Child} {status : WaitStatus}
    {world : World} (hchild : child ∈ world.children) (hstatus : child.status = some status) :
    Acts Act allow world (reapOne child status world) := by
  unfold reapOne
  split
  next hnone =>
    refine Acts.single hroutine (.reapUnmanaged world child hchild ?_)
    simpa using hnone
  next i hsome =>
    apply onEntry_acts
    intro mp hentry
    have hpid : mp.pid = child.pid := by
      obtain ⟨hlt, hpid, _⟩ := List.findIdx?_eq_some_iff_getElem.mp hsome
      rw [List.getElem?_eq_getElem hlt] at hentry
      cases hentry
      exact eq_of_beq hpid
    split
    next hstopping =>
      exact Acts.single hroutine
        (.reapStopped world i mp child status hentry hpid hchild hstatus hstopping)
    next hstopping =>
      have hlisted : child ∈ world.interact.children :=
        List.mem_map.mpr ⟨child, hchild, Child.pass_of_exited hstatus⟩
      exact (interact_acts hroutine world).tail hroutine
        (.reapCrashed _ i mp child status hentry hpid hlisted hstatus (by simpa using hstopping))

theorem reapLoop_acts (hroutine : allow .routine) (fuel : Nat) (world : World) :
    Acts Act allow world (reapLoop fuel world) := by
  induction fuel generalizing world with
  | zero => exact Acts.refl world
  | succ fuel ih =>
      unfold reapLoop
      dsimp only
      split
      next => exact interact_acts hroutine world
      next child status hwait =>
        obtain ⟨hchild, hstatus⟩ := waitpid_mem hwait
        exact ((interact_acts hroutine world).trans
          (reapOne_acts hroutine hchild hstatus)).trans (ih _)

theorem reapChildren_acts (hroutine : allow .routine) (world : World) :
    Acts Act allow world (reapChildren world) :=
  reapLoop_acts hroutine _ world

theorem checkStopTimeouts_acts (hroutine : allow .routine) (world : World) :
    Acts Act allow world (checkStopTimeouts world) := by
  refine (interact_acts hroutine world).trans ?_
  -- The reading stays the last one, since no body reads the clock again.
  refine (each_acts (fun later => later.clock = world.interact.clock)
    ?_ _ rfl).1
  intro i later hclock
  unfold onEntry
  split
  next => exact ⟨Acts.refl later, hclock⟩
  next mp hentry =>
    dsimp only
    split
    next hdue =>
      split
      next => exact ⟨setMode_acts hroutine later .aborted, hclock⟩
      next elapsed helapsed =>
        split
        next hlate =>
          refine ⟨forceKill_acts hroutine i later ?_, ?_⟩
          · intro same hsame
            rw [hentry] at hsame
            cases hsame
            exact Or.inl ⟨hdue.1, elapsed, hclock ▸ helapsed, hlate⟩
          · simp only [forceKill, onEntry, hentry]
            split <;> exact hclock
        next => exact ⟨Acts.refl later, hclock⟩
    next => exact ⟨Acts.refl later, hclock⟩

/-- An expired backoff is a gated restart or an ungated one. -/
theorem restartEntry_acts (hroutine : allow .routine) (hadvance : allow .advance)
    (hbackoff : allow .backoff) (hordinary : ∀ kind, allow kind → Ordinary kind) {i : Nat}
    {mp : ManagedProcess} {world : World} (hidle : world.deadline = none)
    (hentry : world.processes[i]? = some mp)
    (hstate : mp.state = .restarting) (hauto : mp.autoRestart = true)
    (hungated : world.dependenciesRunning mp = false → allow (.ungated i)) :
    Acts Act allow world (restartEntry i world) := by
  have hcount := Acts.single hbackoff (Act.countRestart world i)
  have hstates : (world.countRestart i).runStates = world.runStates :=
    Table.map_modify_same _ fun _ _ => rfl
  have hcounted : (world.countRestart i).processes[i]? =
      some { mp with restartCount := mp.restartCount + 1 } := Table.getElem?_modify_self hentry
  have hstart : Acts Act allow (world.countRestart i)
      (startProcess i (world.countRestart i)) := by
    cases hdeps : world.dependenciesRunning mp with
    | true =>
        refine startProcess_acts hroutine hadvance hidle hordinary ?_
        intro counted hsame
        cases hcounted.symm.trans hsame
        exact ⟨(dependenciesRunning_congr _ hstates).trans hdeps, Or.inr ⟨hstate, hauto⟩⟩
    | false =>
        refine startProcess_acts hroutine (hungated hdeps) hidle hordinary ?_
        intro counted hsame
        cases hcounted.symm.trans hsame
        exact ⟨(dependenciesRunning_congr _ hstates).trans hdeps, hstate, hauto⟩
  exact (hcount.trans hstart).tail hbackoff (.growBackoff _ i)

/-- The backoff of a crashed entry has expired. -/
def Due (nowT : Time) (mp : ManagedProcess) : Prop :=
  mp.state = .restarting ∧ mp.autoRestart = true ∧
    ∃ elapsed, nowT.sub? mp.crashTime = some elapsed ∧ mp.currentBackoffSec ≤ elapsed

/-- Every entry that `handle_restarts` is about to restart has its dependencies RUNNING. -/
def RestartsGated (world : World) : Prop :=
  ∀ mp ∈ world.processes, Due world.interact.clock mp → world.dependenciesRunning mp = true

/-- What a change to one entry must respect for the dependency checks to stay valid. -/
structure KeepsStates (change : ManagedProcess → ManagedProcess) : Prop where
  name : ∀ mp, (change mp).name = mp.name
  dependencies : ∀ mp, (change mp).dependencies = mp.dependencies
  notRunning : ∀ mp, mp.state ≠ .running → (change mp).state ≠ .running

theorem KeepsStates.comp {first second : ManagedProcess → ManagedProcess}
    (hsecond : KeepsStates second) (hfirst : KeepsStates first) :
    KeepsStates (second ∘ first) where
  name mp := (hsecond.name _).trans (hfirst.name mp)
  dependencies mp := (hsecond.dependencies _).trans (hfirst.dependencies mp)
  notRunning mp hstate := hsecond.notRunning _ (hfirst.notRunning mp hstate)

theorem runStates_modify {world next : World} {i : Nat} {mp : ManagedProcess}
    {change : ManagedProcess → ManagedProcess} (hkeeps : KeepsStates change)
    (hprocesses : next.processes = world.processes.modify i change)
    (hentry : world.processes[i]? = some mp) (hstate : mp.state ≠ .running) :
    next.runStates = world.runStates := by
  rw [runStates, hprocesses]
  refine Table.map_modify_same _ fun same hsame => ?_
  cases hentry.symm.trans hsame
  rw [hkeeps.name, beq_eq_false_iff_ne.mpr hstate,
    beq_eq_false_iff_ne.mpr (hkeeps.notRunning mp hstate)]

/-- What `start_process` makes of its entry: a fork, or a crash to be retried. -/
def Starts (change : ManagedProcess → ManagedProcess) : Prop :=
  ∀ mp, (change mp).state = .starting ∨
    (change mp).state = .restarting ∧ (change mp).pid = mp.pid ∧ (change mp).stopping = mp.stopping

/-- `start_process` changes its own entry only. -/
theorem startProcess_processes (i : Nat) (world : World) :
    ∃ change, KeepsStates change ∧ Starts change ∧
      (startProcess i world).processes = world.processes.modify i change := by
  cases hentry : world.processes[i]? with
  | none =>
      rw [startProcess, onEntry_none hentry]
      refine ⟨fun mp => { mp with state := .restarting }, ?_, fun _ => Or.inr ⟨rfl, rfl, rfl⟩, ?_⟩
      · exact ⟨fun _ => rfl, fun _ => rfl, fun _ _ hstate => by cases hstate⟩
      · exact (List.modify_eq_self (List.getElem?_eq_none_iff.mp hentry)).symm
  | some mp =>
      obtain ⟨_, hprocesses⟩ : Acts Act (fun _ => True) world _ ∧ _ :=
        killZombie_acts trivial mp world
      rw [startProcess, onEntry_some hentry]
      dsimp only
      generalize killZombie mp world = cleared at hprocesses
      have hfailed : ∃ change, KeepsStates change ∧ Starts change ∧
          (forkFailed i cleared.beat.error cleared.interact.interact).processes =
            world.processes.modify i change := by
        rw [← hprocesses]
        refine ⟨_, ?_, ?_, rfl⟩
        · exact ⟨fun _ => rfl, fun _ => rfl, fun _ _ hstate => by cases hstate⟩
        · exact fun _ => Or.inr ⟨rfl, rfl, rfl⟩
      split
      next => exact hfailed
      next pid _ =>
        split
        next =>
          rw [forkSucceeded_processes, ← hprocesses]
          split <;>
          · refine ⟨_, ?_, fun _ => Or.inl rfl, rfl⟩
            exact ⟨fun _ => rfl, fun _ => rfl, fun _ _ hstate => by cases hstate⟩
        next => exact hfailed

theorem restartEntry_processes (i : Nat) (world : World) :
    ∃ change, KeepsStates change ∧
      (restartEntry i world).processes = world.processes.modify i change := by
  obtain ⟨change, hchange, _, hprocesses⟩ := startProcess_processes i (world.countRestart i)
  unfold restartEntry
  dsimp only [countRestart, note, update] at hprocesses ⊢
  rw [hprocesses, List.modify_modify_eq, List.modify_modify_eq]
  refine ⟨_, KeepsStates.comp (KeepsStates.comp ?_ hchange) ?_, rfl⟩
  · exact ⟨fun _ => rfl, fun _ => rfl, fun _ hstate => hstate⟩
  · exact ⟨fun _ => rfl, fun _ => rfl, fun _ hstate => hstate⟩

theorem handleRestarts_acts (hroutine : allow .routine) (hadvance : allow .advance)
    (hbackoff : allow .backoff) (hordinary : ∀ kind, allow kind → Ordinary kind) {world : World}
    (hidle : world.deadline = none)
    (hungated : ¬ world.RestartsGated → ∀ i, allow (.ungated i)) :
    Acts Act allow world (handleRestarts world) := by
  refine (interact_acts hroutine world).trans ?_
  -- A restart of one entry leaves the dependencies of the others as they are.
  refine (each_acts (fun later => later.deadline = none ∧ (world.RestartsGated →
    ∀ mp ∈ later.processes, Due world.interact.clock mp → later.dependenciesRunning mp = true))
    ?_ _ ⟨show world.interact.deadline = none from hidle, fun hgated => hgated⟩).1
  rintro i later ⟨hidle, hgated⟩
  cases hentry : later.processes[i]? with
  | none =>
      rw [onEntry_none hentry]
      exact ⟨Acts.refl later, hidle, hgated⟩
  | some mp =>
      rw [onEntry_some hentry]
      split
      next => exact ⟨Acts.refl later, hidle, hgated⟩
      next hstate =>
        split
        next => exact ⟨Acts.refl later, hidle, hgated⟩
        next hauto =>
          split
          next => exact ⟨setMode_acts hroutine later .aborted, hidle, hgated⟩
          next elapsed helapsed =>
            split
            next hexpired =>
              have hrestarting := not_not.mp hstate
              have hdue : Due world.interact.clock mp :=
                ⟨hrestarting, by simpa using hauto, elapsed, helapsed, hexpired⟩
              have hacts : Acts Act allow later (restartEntry i later) := by
                refine restartEntry_acts hroutine hadvance hbackoff hordinary hidle hentry
                  hrestarting hdue.2.1 fun hdeps => hungated (fun hall => ?_) i
                have hrunning := hgated hall mp (List.mem_of_getElem? hentry) hdue
                rw [hdeps] at hrunning
                cases hrunning
              refine ⟨hacts, (acts_deadline hordinary hacts).trans hidle, fun hall => ?_⟩
              obtain ⟨change, hkeeps, hprocesses⟩ := restartEntry_processes i later
              have hstates := runStates_modify hkeeps hprocesses hentry (by simp [hrestarting])
              rw [hprocesses]
              refine Table.forall_modify (fun other hother hdue' => ?_) fun same hsame _ => ?_
              · rw [dependenciesRunning_congr other hstates]
                exact hgated hall other hother hdue'
              · cases hentry.symm.trans hsame
                rw [dependenciesRunning_eq, hkeeps.dependencies, hstates, ← dependenciesRunning_eq]
                exact hgated hall mp (List.mem_of_getElem? hentry) hdue
            next => exact ⟨Acts.refl later, hidle, hgated⟩

theorem markRunning_acts (hadvance : allow .advance) (world : World) :
    Acts Act allow world (markRunning world) := by
  refine each_acts_any ?_ _ world
  intro i later
  apply onEntry_acts
  intro mp hentry
  split
  next => exact Acts.refl later
  next hstate =>
    split
    next => exact Acts.refl later
    next =>
      split
      next => exact Acts.single hadvance (.markRunning later i mp hentry (not_not.mp hstate))
      next => exact Acts.refl later

theorem resetBackoffs_acts (hroutine : allow .routine) (hadvance : allow .advance)
    (world : World) : Acts Act allow world (resetBackoffs world) := by
  refine (interact_acts hroutine world).trans ?_
  -- The reading stays the last one, since no body reads the clock again.
  refine (each_acts (fun later => later.clock = world.interact.clock ∧
    later.config = world.interact.config) ?_ _ ⟨rfl, rfl⟩).1
  rintro i later ⟨hclock, hconfig⟩
  unfold onEntry
  split
  next => exact ⟨Acts.refl later, hclock, hconfig⟩
  next mp hentry =>
    dsimp only
    split
    next => exact ⟨Acts.refl later, hclock, hconfig⟩
    next hstate =>
      split
      next => exact ⟨Acts.refl later, hclock, hconfig⟩
      next =>
        split
        next => exact ⟨setMode_acts hroutine later .aborted, hclock, hconfig⟩
        next uptime huptime =>
          split
          next hlong =>
            refine ⟨Acts.single hadvance (.resetBackoff later i mp hentry (not_not.mp hstate)
              ⟨uptime, ?_, hlong⟩), hclock, hconfig⟩
            rw [hclock]
            exact huptime
          next => exact ⟨Acts.refl later, hclock, hconfig⟩

theorem checkStarted_acts (hroutine : allow .routine) (hadvance : allow .advance)
    (world : World) : Acts Act allow world (checkStarted world) :=
  andThen_acts (markRunning_acts hadvance world) fun _ => resetBackoffs_acts hroutine hadvance _

/-- `check_odin_health` would take its last but one branch. -/
def GivesUp (world : World) : Prop :=
  ∃ i mp, world.findProcess odin = some i ∧ world.processes[i]? = some mp ∧
    mp.state = .running ∧ world.odinHealthArmed = true ∧ 0 < mp.pid ∧
    world.config.odinHealthTimeoutSec < world.interact.steady - world.odinLastMsgSteady ∧
    world.config.odinHealthMaxFails ≤ world.odinHealthFailCount

theorem checkOdinHealth_acts (hroutine : allow .routine) {world : World}
    (hgiveUp : world.GivesUp → allow .giveUp) :
    Acts Act allow world (checkOdinHealth world) := by
  unfold checkOdinHealth
  split
  next => exact Acts.refl world
  next i hodin =>
    apply onEntry_acts
    intro mp hentry
    split
    next => exact Acts.refl world
    next hstate =>
      split
      next => exact Acts.refl world
      next harmed =>
        split
        next => exact Acts.refl world
        next hpid =>
          have hrunning := not_not.mp hstate
          have harmed' : world.odinHealthArmed = true := by simpa using harmed
          have hread := interact_acts hroutine world
          dsimp only
          split
          next hflow =>
            split
            next hforgive => exact hread.tail hroutine (.forgive _ hflow hforgive.2)
            next => exact hread
          next hstall =>
            split
            next hlimit =>
              refine hread.tail (hgiveUp ⟨i, mp, hodin, hentry, hrunning, harmed',
                Int.not_le.mp hpid, Int.not_le.mp hstall, hlimit⟩) ?_
              exact .giveUp _ i mp hodin hentry hrunning harmed' (Int.not_le.mp hpid) hlimit
            next hlimit =>
              exact hread.tail hroutine (.healthKill _ i mp hodin hentry hrunning harmed'
                (Int.not_le.mp hpid) (Int.not_le.mp hlimit))

theorem handlePending_acts (hroutine : allow .routine) (hadvance : allow .advance)
    (hordinary : ∀ kind, allow kind → Ordinary kind) {world : World}
    (hidle : world.deadline = none) : Acts Act allow world (handlePending world) := by
  refine each_acts_idle hordinary ?_ _ hidle
  intro i later hlater
  apply onEntry_acts
  intro mp hentry
  split
  next => exact Acts.refl later
  next hstate =>
    split
    next => exact Acts.refl later
    next hdeps =>
      have hguard : later.SpawnGuard mp .advance :=
        ⟨by simpa using hdeps, Or.inl (not_not.mp hstate)⟩
      split
      next =>
        refine startProcess_acts hroutine hadvance hlater hordinary ?_
        intro same hsame
        cases hentry.symm.trans hsame
        exact hguard
      next =>
        dsimp only
        split
        next =>
          refine (interact_acts hroutine later).trans
            (startProcess_acts hroutine hadvance hlater hordinary ?_)
          intro same hsame
          cases hentry.symm.trans hsame
          exact spawnGuard_congr rfl hguard
        next => exact interact_acts hroutine later

theorem collectStatuses_acts (hroutine : allow .routine) (entries : List ManagedProcess)
    (done : List ProcessStatus) (world : World) {next : World}
    {statuses : Option (List ProcessStatus)}
    (hcollect : collectStatuses entries done world = (statuses, next)) :
    Acts Act allow world next := by
  induction entries generalizing done world with
  | nil => cases hcollect; exact Acts.refl _
  | cons mp rest ih =>
      have hread : Acts Act allow world
          (if mp.state = .running then world.interact else world) := by
        split
        · exact interact_acts hroutine world
        · exact Acts.refl world
      unfold collectStatuses at hcollect
      dsimp only at hcollect
      split at hcollect
      next => cases hcollect; exact hread.trans (setMode_acts hroutine _ .aborted)
      next => exact hread.trans (ih _ _ hcollect)

theorem publishStatus_acts (hroutine : allow .routine) (world : World) :
    Acts Act allow world (publishStatus world) := by
  have hread := interact_acts hroutine world
  unfold publishStatus
  dsimp only
  split
  next => exact hread.trans (setMode_acts hroutine _ .aborted)
  next =>
    split
    next hcollect => exact hread.trans (collectStatuses_acts hroutine _ _ _ hcollect)
    next hcollect =>
      exact (hread.trans (collectStatuses_acts hroutine _ _ _ hcollect)).tail hroutine
        (.publish _ _)

end World

end AcflyRos.Daemon

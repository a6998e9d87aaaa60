import AcflyRos.Daemon.Steps
import Mathlib.Algebra.Order.Group.Int

/-! # What the health check goes by

The fields of the health check change in four places: in `check_odin_health` itself, when a
message arrives, when odin1_driver is started, and when a request starts over. One lemma for
each of the other functions says that it leaves them alone.
-/

namespace AcflyRos.Daemon

open AcflyRos.Transition

/-- Forks, and kills of the health check. -/
def Event.vital : Event → Bool
  | .forked .. => true
  | .healthKilled .. => true
  | _ => false

/-- The fields of the health check, and the events that they have to do with. -/
structure Vitals where
  odinHealthFailCount : Int
  odinLastMsgSteady : Int
  odinRunningSteady : Int
  odinHealthArmed : Bool
  events : List Event
  deriving DecidableEq, Repr

namespace World

def vitals (world : World) : Vitals where
  odinHealthFailCount := world.odinHealthFailCount
  odinLastMsgSteady := world.odinLastMsgSteady
  odinRunningSteady := world.odinRunningSteady
  odinHealthArmed := world.odinHealthArmed
  events := world.log.filter Event.vital

/-! ## Functions that leave the health check alone -/

section Frames

variable {α : Type} (observe : World → α)

theorem andThen_frame {next : World → World} (hnext : ∀ world, observe (next world) = observe world)
    (world : World) : observe (world.andThen next) = observe world := by
  unfold andThen
  split
  · exact hnext world
  · rfl

theorem each_frame {body : Nat → World → World}
    (hbody : ∀ i world, observe (body i world) = observe world) (order : List Nat) (world : World) :
    observe (world.each order body) = observe world := by
  unfold each
  induction order generalizing world with
  | nil => rfl
  | cons i rest ih => exact (ih _).trans (andThen_frame observe (hbody i) world)

theorem onEntry_frame {body : ManagedProcess → World → World} (i : Nat) (world : World)
    (hbody : ∀ mp, world.processes[i]? = some mp → observe (body mp world) = observe world) :
    observe (world.onEntry i body) = observe world := by
  cases hentry : world.processes[i]? with
  | none => rw [onEntry_none hentry]
  | some mp =>
      rw [onEntry_some hentry]
      exact hbody mp hentry

/-- `kill_zombie` takes a beat and sends signals. -/
theorem killZombie_frame (hinteract : ∀ world, observe world.interact = observe world)
    (hkill : ∀ pid world, observe ((world.markKilled pid).record (.zombieKilled pid)) =
      observe world) (mp : ManagedProcess) (world : World) :
    observe (killZombie mp world) = observe world := by
  unfold killZombie
  split
  next => rfl
  next pattern _ =>
    refine List.foldlRecOn (motive := fun later : World => observe later = observe world) _ _ ?_ ?_
    · exact hinteract world
    · rintro later hlater ⟨pid, cmdline⟩ _
      dsimp only
      split
      · exact (hkill pid later).trans hlater
      · exact hlater

end Frames

theorem killZombie_vitals (mp : ManagedProcess) (world : World) :
    (killZombie mp world).vitals = world.vitals :=
  killZombie_frame vitals (fun _ => rfl) (fun _ _ => rfl) mp world

theorem requestStop_vitals (i : Nat) (world : World) :
    (requestStop i world).vitals = world.vitals := by
  apply onEntry_frame
  intro mp _
  split <;> rfl

theorem forceKill_vitals (i : Nat) (world : World) : (forceKill i world).vitals = world.vitals := by
  apply onEntry_frame
  intro mp _
  split <;> rfl

theorem reapOne_vitals (child : Child) (status : WaitStatus) (world : World) :
    (reapOne child status world).vitals = world.vitals := by
  unfold reapOne
  split
  next => rfl
  next i _ =>
    apply onEntry_frame
    intro mp _
    split <;> rfl

theorem reapChildren_vitals (world : World) : (reapChildren world).vitals = world.vitals := by
  have hloop : ∀ (fuel : Nat) (world : World), (reapLoop fuel world).vitals = world.vitals := by
    intro fuel
    induction fuel with
    | zero => exact fun _ => rfl
    | succ fuel ih =>
        intro world
        unfold reapLoop
        dsimp only
        split
        next => rfl
        next => exact (ih _).trans (reapOne_vitals _ _ _)
  exact hloop _ _

theorem checkStopTimeouts_vitals (world : World) :
    (checkStopTimeouts world).vitals = world.vitals := by
  unfold checkStopTimeouts
  refine (each_frame vitals ?_ _ _).trans (show world.interact.vitals = world.vitals from rfl)
  intro i later
  apply onEntry_frame
  intro mp _
  split
  next =>
    split
    next => rfl
    next =>
      split
      next => exact forceKill_vitals i later
      next => rfl
  next => rfl

theorem markRunning_vitals (world : World) : (markRunning world).vitals = world.vitals := by
  apply each_frame
  intro i later
  apply onEntry_frame
  intro mp _
  split
  next => rfl
  next =>
    split
    next => rfl
    next => split <;> rfl

theorem resetBackoffs_vitals (world : World) : (resetBackoffs world).vitals = world.vitals := by
  unfold resetBackoffs
  refine (each_frame vitals ?_ _ _).trans (show world.interact.vitals = world.vitals from rfl)
  intro i later
  apply onEntry_frame
  intro mp _
  split
  next => rfl
  next =>
    split
    next => rfl
    next =>
      split
      next => rfl
      next => split <;> rfl

/-- `on_timer` up to `check_odin_health`. -/
theorem beforeHealth_vitals (world : World) : (beforeHealth world).vitals = world.vitals := by
  unfold beforeHealth checkStarted
  rw [andThen_frame vitals fun later => ?_, andThen_frame vitals checkStopTimeouts_vitals,
    reapChildren_vitals]
  rw [andThen_frame vitals resetBackoffs_vitals, markRunning_vitals]

theorem collectStatuses_vitals (entries : List ManagedProcess) (done : List ProcessStatus)
    (world : World) : (collectStatuses entries done world).2.vitals = world.vitals := by
  induction entries generalizing done world with
  | nil => rfl
  | cons mp rest ih =>
      have hread : (if mp.state = .running then world.interact else world).vitals =
          world.vitals := by
        split <;> rfl
      unfold collectStatuses
      dsimp only
      split
      next => exact hread
      next => exact (ih _ _).trans hread

theorem publishStatus_vitals (world : World) : (publishStatus world).vitals = world.vitals := by
  unfold publishStatus
  dsimp only
  split
  next => rfl
  next =>
    split
    next hcollect =>
      exact (congrArg (·.2.vitals) hcollect).symm.trans (collectStatuses_vitals _ _ _)
    next hcollect =>
      exact (congrArg (·.2.vitals) hcollect).symm.trans (collectStatuses_vitals _ _ _)

theorem shutdownPoll_vitals (fuel : Nat) (world : World) :
    (shutdownPoll fuel world).vitals = world.vitals := by
  induction fuel generalizing world with
  | zero => rfl
  | succ fuel ih =>
      unfold shutdownPoll
      dsimp only
      split
      next => rfl
      next =>
        split
        next =>
          rw [andThen_frame vitals fun later => ?_, andThen_frame vitals checkStopTimeouts_vitals,
            reapChildren_vitals]
          · rfl
          · split
            · rfl
            · exact ih _
        next => rfl

theorem shutdownAll_vitals (world : World) : (shutdownAll world).vitals = world.vitals := by
  have hask : ∀ world : World, (requestStopAll world).vitals = world.vitals := by
    intro world
    apply each_frame
    intro i later
    apply onEntry_frame
    intro mp _
    split
    · exact requestStop_vitals i later
    · rfl
  have hkill : ∀ world : World, (killRemaining world).vitals = world.vitals := by
    intro world
    apply each_frame
    intro i later
    apply onEntry_frame
    intro mp _
    split
    · exact forceKill_vitals i later
    · rfl
  unfold shutdownAll
  split
  next => rfl
  next =>
    have hlast : ∀ world : World, { world with deadline := none }.vitals = world.vitals :=
      fun _ => rfl
    dsimp only
    refine (andThen_frame vitals hlast _).trans ?_
    exact (andThen_frame vitals hkill _).trans ((shutdownPoll_vitals _ _).trans (hask _))

theorem waitStopped_vitals (i fuel : Nat) (world : World) :
    (waitStopped i fuel world).vitals = world.vitals := by
  induction fuel generalizing world with
  | zero => rfl
  | succ fuel ih =>
      unfold waitStopped
      apply onEntry_frame
      intro mp _
      split
      next =>
        rw [andThen_frame vitals ih, andThen_frame vitals checkStopTimeouts_vitals,
          reapChildren_vitals]
        rfl
      next => rfl

end World

/-! ## Starts -/

/-- What the health check has decided, newest first: whether it gave up. -/
def World.verdicts (world : World) : List Bool :=
  world.log.filterMap fun event =>
    match event with
    | .healthKilled _ _ givingUp => some givingUp
    | _ => none

theorem verdicts_of_events {world next : World}
    (hevents : next.vitals.events = world.vitals.events) :
    next.verdicts = world.verdicts := by
  have hfilter : ∀ world : World,
      world.verdicts = { world with log := world.vitals.events }.verdicts := by
    intro world
    unfold World.verdicts World.vitals
    dsimp only
    rw [List.filterMap_filter]
    apply List.filterMap_congr
    intro event _
    cases event <;> rfl
  rw [hfilter next, hfilter world, hevents]
  rfl

theorem Act.config_eq {kind : Kind} {world next : World} (hact : Act kind world next) :
    next.config = world.config := by
  cases hact with
  | fork | reset => simp
  | _ => rfl

theorem Act.steady_le {kind : Kind} {world next : World} (hact : Act kind world next) :
    world.steady ≤ next.steady := by
  cases hact with
  | env => exact le_add_of_nonneg_right (Int.natCast_nonneg _)
  | fork _ _ i mp pid startTime =>
      rw [World.forkSucceeded]
      split <;> exact le_rfl
  | reset _ i mp =>
      rw [World.resetForStart]
      split <;> exact le_rfl
  | _ => exact le_rfl

theorem acts_config {allow : Kind → Prop} {world next : World}
    (hacts : Acts Act allow world next) : next.config = world.config :=
  hacts.frame World.config fun _ _ _ _ hact => hact.config_eq

theorem acts_steady {allow : Kind → Prop} {world next : World}
    (hacts : Acts Act allow world next) : world.steady ≤ next.steady :=
  hacts.keeps (fun later => world.steady ≤ later.steady)
    (fun _ _ _ _ hact hle => hle.trans hact.steady_le) le_rfl

/-- The health check goes on where it was, unless odin1_driver has been started. -/
structure Carries (before after : World) : Prop where
  failCount : after.odinHealthFailCount = before.odinHealthFailCount
  lastMsg : after.odinLastMsgSteady = before.odinLastMsgSteady
  verdicts : after.verdicts = before.verdicts
  steady : before.steady ≤ after.steady
  start : after.odinHealthArmed = before.odinHealthArmed ∧
      after.odinRunningSteady = before.odinRunningSteady ∨
    after.odinHealthArmed = false ∧ before.steady ≤ after.odinRunningSteady ∧
      after.odinRunningSteady ≤ after.steady

namespace Carries

variable {first second third before after : World}

theorem of_vitals (hvitals : after.vitals = before.vitals)
    (hsteady : before.steady ≤ after.steady) :
    Carries before after where
  failCount := congrArg Vitals.odinHealthFailCount hvitals
  lastMsg := congrArg Vitals.odinLastMsgSteady hvitals
  verdicts := verdicts_of_events (congrArg Vitals.events hvitals)
  steady := hsteady
  start := Or.inl
    ⟨congrArg Vitals.odinHealthArmed hvitals, congrArg Vitals.odinRunningSteady hvitals⟩

theorem refl (world : World) : Carries world world := of_vitals rfl le_rfl

theorem trans (hfirst : Carries first second) (hsecond : Carries second third) :
    Carries first third where
  failCount := hsecond.failCount.trans hfirst.failCount
  lastMsg := hsecond.lastMsg.trans hfirst.lastMsg
  verdicts := hsecond.verdicts.trans hfirst.verdicts
  steady := hfirst.steady.trans hsecond.steady
  start := by
    rcases hsecond.start with ⟨harmed, hrunning⟩ | ⟨harmed, hafter, hbefore⟩
    · rw [harmed, hrunning]
      rcases hfirst.start with hsame | ⟨hdisarmed, hafter, hbefore⟩
      · exact Or.inl hsame
      · exact Or.inr ⟨hdisarmed, hafter, hbefore.trans hsecond.steady⟩
    · exact Or.inr ⟨harmed, hfirst.steady.trans hafter, hbefore⟩

end Carries

/-- A request may have started the count over. -/
def Intervened (before after : World) : Prop :=
  Carries before after ∨ Carries { before with odinHealthFailCount := 0 } after

theorem Carries.intervened {first second third : World} (hfirst : Carries first second)
    (h : Intervened second third) : Intervened first third := by
  rcases h with hcarries | hcarries
  · exact Or.inl (hfirst.trans hcarries)
  · refine Or.inr (Carries.trans ?_ hcarries)
    exact ⟨rfl, hfirst.lastMsg, hfirst.verdicts, hfirst.steady, hfirst.start⟩

theorem Intervened.carries {first second third : World} (h : Intervened first second)
    (hlast : Carries second third) : Intervened first third :=
  h.imp (fun hcarries => hcarries.trans hlast) fun hcarries => hcarries.trans hlast

namespace World

theorem andThen_carries {start world : World} {next : World → World} (hstart : Carries start world)
    (hnext : Carries world (next world)) : Carries start (world.andThen next) := by
  unfold andThen
  split
  · exact hstart.trans hnext
  · exact hstart

theorem each_carries {body : Nat → World → World} (hbody : ∀ i world, Carries world (body i world))
    (order : List Nat) (world : World) : Carries world (world.each order body) := by
  unfold each
  induction order generalizing world with
  | nil => exact Carries.refl world
  | cons i rest ih => exact (andThen_carries (Carries.refl world) (hbody i world)).trans (ih _)

theorem onEntry_carries {body : ManagedProcess → World → World} (i : Nat) (world : World)
    (hbody : ∀ mp, Carries world (body mp world)) : Carries world (world.onEntry i body) := by
  unfold onEntry
  split
  · exact Carries.refl world
  · exact hbody _

theorem interact_carries (world : World) : Carries world world.interact :=
  Carries.of_vitals rfl (Act.steady_le (.env world))

theorem forkSucceeded_carries (world : World) (i : Nat) (owner : String) (pid : Pid)
    (startTime : Time) : Carries world (world.forkSucceeded i owner pid startTime) := by
  unfold forkSucceeded
  dsimp only
  split
  next => exact ⟨rfl, rfl, rfl, le_rfl, Or.inr ⟨rfl, le_rfl, le_rfl⟩⟩
  next => exact ⟨rfl, rfl, rfl, le_rfl, Or.inl ⟨rfl, rfl⟩⟩

theorem startProcess_carries (i : Nat) (world : World) : Carries world (startProcess i world) := by
  apply onEntry_carries
  intro mp
  have hzombie : Carries world (killZombie mp world) := by
    obtain ⟨hacts, _⟩ : Acts Act (fun _ => True) world _ ∧ _ := killZombie_acts trivial mp world
    exact Carries.of_vitals (killZombie_vitals mp world) (acts_steady hacts)
  dsimp only
  generalize killZombie mp world = cleared at hzombie
  have hasked := hzombie.trans cleared.interact_carries
  have hread := hasked.trans cleared.interact.interact_carries
  have hfailed : Carries world
      (forkFailed i cleared.beat.error cleared.interact.interact) :=
    hread.trans (Carries.of_vitals rfl le_rfl)
  split
  next => exact hfailed
  next =>
    split
    next =>
      refine Carries.trans ?_ (forkSucceeded_carries _ _ _ _ _)
      split
      · exact hread.trans (interact_carries _)
      · exact hread
    next => exact hfailed

theorem handleRestarts_carries (world : World) : Carries world (handleRestarts world) := by
  refine world.interact_carries.trans (each_carries ?_ _ _)
  intro i later
  apply onEntry_carries
  intro mp
  split
  next => exact Carries.refl later
  next =>
    split
    next => exact Carries.refl later
    next =>
      split
      next => exact Carries.of_vitals rfl le_rfl
      next =>
        split
        next =>
          have hcounted : Carries later (countRestart i later) := Carries.of_vitals rfl le_rfl
          exact (hcounted.trans (startProcess_carries i _)).trans (Carries.of_vitals rfl le_rfl)
        next => exact Carries.refl later

theorem handlePending_carries (world : World) : Carries world (handlePending world) := by
  refine each_carries ?_ _ _
  intro i later
  apply onEntry_carries
  intro mp
  split
  next => exact Carries.refl later
  next =>
    split
    next => exact Carries.refl later
    next =>
      split
      next => exact startProcess_carries i later
      next =>
        dsimp only
        split
        next => exact later.interact_carries.trans (startProcess_carries i _)
        next => exact later.interact_carries

theorem requestStop_carries (i : Nat) (world : World) : Carries world (requestStop i world) := by
  apply onEntry_carries
  intro mp
  split
  · exact Carries.refl world
  · exact world.interact_carries.trans (Carries.of_vitals rfl le_rfl)

theorem respond_carries (world : World) (success : Bool) (message : String) :
    Carries world (world.respond success message) := Carries.of_vitals rfl le_rfl

theorem startManually_intervened (i : Nat) (name success failure : String) (world : World) :
    Intervened world (startManually i name success failure world) := by
  have hreset : Intervened world (resetForStart i name world) := by
    unfold resetForStart
    dsimp only
    split
    · exact Or.inr (Carries.of_vitals rfl le_rfl)
    · exact Or.inl (Carries.of_vitals rfl le_rfl)
  have hstarted := hreset.carries (startProcess_carries i _)
  unfold startManually andThen
  split
  · refine hstarted.carries (onEntry_carries i _ fun mp => ?_)
    split
    · exact respond_carries _ _ _
    · exact respond_carries _ _ _
  · exact hstarted

theorem handleStart_intervened (name : String) (world : World) :
    Intervened world (handleStart name world) := by
  unfold handleStart
  split
  next => exact Or.inl (respond_carries _ _ _)
  next =>
    split
    next => exact Or.inl (respond_carries _ _ _)
    next i hfind =>
      obtain ⟨mp, hentry, _⟩ := findProcess_some hfind
      rw [onEntry_some hentry]
      split
      · exact Or.inl (respond_carries _ _ _)
      · exact startManually_intervened i name _ _ world

theorem handleRestart_intervened {name : String} (hname : name ≠ "") (world : World) :
    Intervened world (handleRestart name world) := by
  have hroutine : Routine .routine := rfl
  unfold handleRestart
  rw [if_neg hname]
  split
  next => exact Or.inl (respond_carries _ _ _)
  next i hfind =>
    obtain ⟨mp, hentry, _⟩ := findProcess_some hfind
    rw [onEntry_some hentry]
    dsimp only
    have hasked : Carries world
        (if mp.state = .running ∨ mp.state = .starting then requestStop i world else world) := by
      split
      · exact requestStop_carries i world
      · exact Carries.refl world
    generalize (if mp.state = .running ∨ mp.state = .starting then requestStop i world
      else world) = asked at hasked ⊢
    have hwaited : Carries asked (waitStopped i (asked.script.length + 1) asked) :=
      Carries.of_vitals (waitStopped_vitals i _ asked) (acts_steady (waitStopped_acts i _ asked).1)
    refine (hasked.trans hwaited).intervened ?_
    unfold andThen
    split
    · exact startManually_intervened i name _ _ _
    · exact Or.inl (Carries.refl _)

theorem handleRestart_vitals (world : World) : (handleRestart "" world).vitals = world.vitals ∨
    (handleRestart "" world).vitals = { world with odinHealthFailCount := 0 }.vitals := by
  have hshut := shutdownAll_vitals world
  unfold handleRestart andThen
  rw [if_pos rfl]
  split
  · right
    unfold resetAll
    dsimp only
    have hreset : (shutdownAll world).resetEntries.vitals =
        { world with odinHealthFailCount := 0 }.vitals := by
      show { (shutdownAll world).vitals with odinHealthFailCount := 0 } = _
      rw [hshut]
      rfl
    split <;> exact hreset
  · exact Or.inl hshut

theorem handleStop_vitals (name : String) (world : World) :
    (handleStop name world).vitals = world.vitals := by
  unfold handleStop
  split
  next =>
    have hlast : ∀ later : World, ({ later with shuttingDown := false }.respond true
        "All processes shutting down").vitals = later.vitals := fun _ => rfl
    exact (andThen_frame vitals hlast _).trans (shutdownAll_vitals world)
  next =>
    split
    next => rfl
    next i _ =>
      apply onEntry_frame
      intro mp _
      split
      · rfl
      · exact requestStop_vitals i world

theorem handleGetStatus_vitals (name : String) (world : World) :
    (handleGetStatus name world).vitals = world.vitals := by
  have hcollected : ∀ {entries statuses later}, collectStatuses entries [] world =
      (statuses, later) → later.vitals = world.vitals := fun hcollect =>
    (congrArg (·.2.vitals) hcollect).symm.trans (collectStatuses_vitals _ _ _)
  unfold handleGetStatus
  split
  next =>
    split
    next hcollect => exact hcollected hcollect
    next hcollect =>
      have hsame := hcollected hcollect
      exact hsame
  next =>
    split
    next => rfl
    next =>
      apply onEntry_frame
      intro mp _
      split
      next hcollect => exact hcollected hcollect
      next hcollect =>
        have hsame := hcollected hcollect
        exact hsame

end World

end AcflyRos.Daemon

import AcflyRos.Daemon.Vitals

/-! # What the health check does

`check_odin_health` finds a stall, forgives the failures, or leaves the supervisor alone. A tick
that gets as far as the check goes on from what it did, and any other callback carries the fields
of the check over, starts the count over, or delivers a message.
-/

namespace AcflyRos.Daemon

open AcflyRos.Transition

namespace World

/-- `check_odin_health` finds that the odometry has stalled. -/
def Stalled (world : World) (i : Nat) (mp : ManagedProcess) : Prop :=
  world.findProcess odin = some i ∧ world.processes[i]? = some mp ∧ mp.state = .running ∧
    world.odinHealthArmed = true ∧ 0 < mp.pid ∧
    world.config.odinHealthTimeoutSec < world.interact.steady - world.odinLastMsgSteady

/-- `check_odin_health` forgives the failures. -/
structure Forgives (world : World) : Prop where
  counted : 0 < world.odinHealthFailCount
  armed : world.odinHealthArmed = true
  flow : world.interact.steady - world.odinLastMsgSteady ≤ world.config.odinHealthTimeoutSec
  uptime : world.config.odinHealthResetUptimeSec ≤
    world.interact.steady - world.odinRunningSteady

theorem checkOdinHealth_config (world : World) :
    (checkOdinHealth world).config = world.config := by
  have hacts : Acts Act (fun _ => True) world (checkOdinHealth world) :=
    checkOdinHealth_acts trivial fun _ => trivial
  exact acts_config hacts

theorem checkOdinHealth_cases (world : World) :
    (Carries world (checkOdinHealth world) ∧ ∀ i mp, ¬ world.Stalled i mp) ∨
      (world.Forgives ∧ checkOdinHealth world = { world.interact with odinHealthFailCount := 0 } ∧
        ∀ i mp, ¬ world.Stalled i mp) ∨
      ∃ i mp, world.Stalled i mp ∧ checkOdinHealth world =
        if world.config.odinHealthMaxFails ≤ world.odinHealthFailCount then
          giveUp i mp.pid world.interact
        else healthKill mp.pid world.interact := by
  unfold checkOdinHealth
  split
  next hnone =>
    refine Or.inl ⟨Carries.refl world, fun i mp hstalled => ?_⟩
    rw [hstalled.1] at hnone
    cases hnone
  next i hodin =>
    obtain ⟨mp, hentry, _⟩ := findProcess_some hodin
    rw [onEntry_some hentry]
    -- A stall would be that of this entry.
    have hsame : ∀ {j other}, world.Stalled j other → other = mp := by
      rintro j other ⟨hodin', hentry', _⟩
      cases hodin.symm.trans hodin'
      cases hentry.symm.trans hentry'
      rfl
    split
    next hstate =>
      refine Or.inl ⟨Carries.refl world, fun j other hstalled => hstate ?_⟩
      exact hsame hstalled ▸ hstalled.2.2.1
    next hstate =>
      split
      next hdisarmed =>
        refine Or.inl ⟨Carries.refl world, fun j other hstalled => ?_⟩
        rw [hstalled.2.2.2.1] at hdisarmed
        cases hdisarmed
      next harmed =>
        split
        next hpid =>
          refine Or.inl ⟨Carries.refl world, fun j other hstalled => ?_⟩
          exact Int.not_lt.mpr hpid (hsame hstalled ▸ hstalled.2.2.2.2.1)
        next hpid =>
          have harmed' : world.odinHealthArmed = true := by simpa using harmed
          dsimp only
          split
          next hflow =>
            have hnone : ∀ j other, ¬ world.Stalled j other := fun j other hstalled =>
              Int.not_lt.mpr hflow hstalled.2.2.2.2.2
            split
            next hforgive =>
              exact Or.inr (Or.inl ⟨⟨hforgive.1, harmed', hflow, hforgive.2⟩, rfl, hnone⟩)
            next => exact Or.inl ⟨world.interact_carries, hnone⟩
          next hstall =>
            exact Or.inr (Or.inr ⟨i, mp, ⟨hodin, hentry, not_not.mp hstate, harmed',
              Int.not_le.mp hpid, Int.not_le.mp hstall⟩, rfl⟩)

/-- A stall is killed for. -/
theorem checkOdinHealth_of_stalled {world : World} {i : Nat} {mp : ManagedProcess}
    (hstalled : world.Stalled i mp) : checkOdinHealth world =
      if world.config.odinHealthMaxFails ≤ world.odinHealthFailCount then
        giveUp i mp.pid world.interact
      else healthKill mp.pid world.interact := by
  rcases world.checkOdinHealth_cases with
    ⟨_, hnone⟩ | ⟨_, _, hnone⟩ | ⟨j, other, hother, hkilled⟩
  · exact absurd hstalled (hnone i mp)
  · exact absurd hstalled (hnone i mp)
  · cases hstalled.1.symm.trans hother.1
    cases hstalled.2.1.symm.trans hother.2.1
    exact hkilled

/-! ## Every label -/

/-- The kinds of action that a tick takes around the check. -/
def Ticks : Kind → Prop
  | .routine | .advance | .ungated _ | .backoff => True
  | _ => False

theorem Ticks.ordinary (kind : Kind) (hkind : Ticks kind) : Ordinary kind := by
  rintro rfl
  exact hkind

theorem publishStatus_carries (world : World) : Carries world (publishStatus world) := by
  have hroutine : Routine .routine := rfl
  exact Carries.of_vitals (publishStatus_vitals world)
    (acts_steady (publishStatus_acts hroutine world))

theorem beforeHealth_acts (world : World) : Acts Act Ticks world (beforeHealth world) :=
  andThen_acts (andThen_acts (reapChildren_acts trivial world)
    fun _ => checkStopTimeouts_acts trivial _) fun _ => checkStarted_acts trivial trivial _

theorem beforeHealth_carries (world : World) : Carries world (beforeHealth world) :=
  Carries.of_vitals (beforeHealth_vitals world) (acts_steady world.beforeHealth_acts)

theorem entered_carries (world : World) (label : Label) : Carries world (world.entered label) :=
  Carries.of_vitals rfl le_rfl

end World

/-- `check_odin_health` is reached, in that state. -/
structure Checks (world : World) (label : Label) (checked : World) : Prop where
  request : label.request = .timer
  up : world.mode = .up
  quiet : world.signalReceived = false
  state : checked = (world.entered label).beforeHealth
  mode : checked.mode = .up

namespace Checks

variable {world checked : World} {label : Label}

theorem carries (h : Checks world label checked) : Carries world checked := by
  rw [h.state]
  exact (world.entered_carries label).trans (World.beforeHealth_carries _)

theorem vitals (h : Checks world label checked) : checked.vitals = world.vitals := by
  rw [h.state]
  exact World.beforeHealth_vitals _

theorem config (h : Checks world label checked) : checked.config = world.config := by
  have hconfig := acts_config (world.entered label).beforeHealth_acts
  rwa [← h.state] at hconfig

/-- After the check, the tick goes on. -/
theorem step_eq (h : Checks world label checked) : step world label =
    ((World.checkOdinHealth checked).andThen World.handleRestarts).andThen fun later =>
      (World.handlePending later).andThen World.publishStatus := by
  have hchecked : (world.entered label).beforeHealth.andThen World.checkOdinHealth =
      World.checkOdinHealth checked := by
    rw [← h.state]
    exact if_pos h.mode
  unfold step
  rw [if_pos h.up, h.request, ← hchecked]
  exact if_neg (by simp [h.quiet])

theorem step_carries (h : Checks world label checked) :
    Carries (World.checkOdinHealth checked) (step world label) := by
  rw [h.step_eq]
  refine World.andThen_carries (World.andThen_carries (Carries.refl _)
    (World.handleRestarts_carries _)) ?_
  exact World.andThen_carries (World.handlePending_carries _) (World.publishStatus_carries _)

theorem step_acts (h : Checks world label checked)
    (hidle : (World.checkOdinHealth checked).deadline = none) :
    Acts Act World.Ticks (World.checkOdinHealth checked) (step world label) := by
  have hrestarts : Acts Act World.Ticks (World.checkOdinHealth checked)
      ((World.checkOdinHealth checked).andThen World.handleRestarts) :=
    World.andThen_acts (Acts.refl _) fun _ => World.handleRestarts_acts trivial trivial trivial
      World.Ticks.ordinary hidle fun _ _ => trivial
  rw [h.step_eq]
  refine World.andThen_acts hrestarts fun _ => World.andThen_acts ?_ fun _ =>
    World.publishStatus_acts trivial _
  exact World.handlePending_acts trivial trivial World.Ticks.ordinary
    ((acts_deadline World.Ticks.ordinary hrestarts).trans hidle)

end Checks

/-- What a callback does to the health check unless it is the check. -/
inductive Elsewhere (world : World) (label : Label) : Prop where
  | carried (hcarries : Carries world (step world label))
  /-- A request starts the count over. -/
  | manual (hcarries : Carries { world with odinHealthFailCount := 0 } (step world label))
  | delivered (serial : Nat) (rest : List Nat) (hrequest : label.request = .odometry)
      (hup : world.mode = .up) (hqueue : world.odometry = serial :: rest)
      (hstep : step world label =
        World.odinHealthCb serial { world.entered label with odometry := rest })

theorem step_elsewhere {world : World} {label : Label} (hready : Ready world)
    (hnone : ∀ checked, ¬ Checks world label checked) : Elsewhere world label := by
  have hsteady := acts_steady (step_acts label hready)
  by_cases hup : world.mode = .up
  · have hstep : step world label = dispatch label.request (world.entered label) := if_pos hup
    have hcarried : (step world label).vitals = world.vitals → Elsewhere world label :=
      fun hvitals => .carried (Carries.of_vitals hvitals hsteady)
    have hintervened : Intervened (world.entered label) (step world label) →
        Elsewhere world label := by
      intro h
      rcases (world.entered_carries label).intervened h with hcarries | hcarries
      · exact .carried hcarries
      · exact .manual hcarries
    cases hrequest : label.request with
    | timer =>
        rw [hrequest] at hstep
        cases hsignal : world.signalReceived with
        | true =>
            have hshut : step world label = (World.shutdownAll (world.entered label)).andThen
                fun later => { later with mode := .shutDown } := by
              rw [hstep]
              exact if_pos hsignal
            apply hcarried
            rw [hshut]
            have hlast : ∀ later : World, { later with mode := .shutDown }.vitals = later.vitals :=
              fun _ => rfl
            exact (World.andThen_frame World.vitals hlast _).trans (World.shutdownAll_vitals _)
        | false =>
            -- The tick has been left before the check.
            have hdown : (world.entered label).beforeHealth.mode ≠ .up := fun hmode =>
              hnone _ ⟨hrequest, hup, hsignal, rfl, hmode⟩
            have hleft : step world label = (world.entered label).beforeHealth := by
              rw [hstep]
              show World.onTimer _ = _
              unfold World.onTimer
              rw [if_neg (by simp [World.entered, hsignal])]
              have hskip : ∀ next, (world.entered label).beforeHealth.andThen next =
                  (world.entered label).beforeHealth := fun next => if_neg hdown
              show (((World.andThen (world.entered label).beforeHealth _).andThen _).andThen _) = _
              rw [hskip, hskip, hskip]
            apply hcarried
            rw [hleft]
            exact World.beforeHealth_vitals _
    | odometry =>
        rw [hrequest] at hstep
        cases hqueue : world.odometry with
        | nil =>
            apply hcarried
            rw [hstep]
            show (deliver (world.entered label)).vitals = _
            unfold deliver
            rw [show (world.entered label).odometry = [] from hqueue]
            rfl
        | cons serial rest =>
            refine .delivered serial rest hrequest hup hqueue (hstep.trans ?_)
            show deliver (world.entered label) = _
            unfold deliver
            rw [show (world.entered label).odometry = serial :: rest from hqueue]
    | start name =>
        rw [hrequest] at hstep
        exact hintervened (hstep ▸ World.handleStart_intervened name _)
    | stop name =>
        apply hcarried
        rw [hstep, hrequest]
        exact World.handleStop_vitals name _
    | restart name =>
        rw [hrequest] at hstep
        by_cases hname : name = ""
        · rcases World.handleRestart_vitals (world.entered label) with hvitals | hvitals
          · exact hcarried (hstep ▸ hname ▸ hvitals)
          · exact .manual (Carries.of_vitals (hstep ▸ hname ▸ hvitals) hsteady)
        · exact hintervened (hstep ▸ World.handleRestart_intervened hname _)
    | shutdown | signal | idle =>
        apply hcarried
        rw [hstep, hrequest]
        rfl
    | getStatus name =>
        apply hcarried
        rw [hstep, hrequest]
        exact World.handleGetStatus_vitals name _
  · have hstep : step world label = world := if_neg hup
    refine .carried ?_
    rw [hstep]
    exact Carries.refl world

end AcflyRos.Daemon

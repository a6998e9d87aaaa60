import AcflyRos.TimeSync.Node

/-! # When a reference sets the clock

Each handler of a reference may call `do_bootstrap`. A callback for a valid reference
either leaves the clock and the window alone, or sets the clock, empties the window and
starts the cooldown; this says which, in terms of the state before it.
-/

namespace AcflyRos.TimeSync

/-- When `clock_settime` has succeeded, on the monotonic clock. Newest first. -/
def jumpTimes (log : List Entry) : List Int :=
  log.filterMap fun entry =>
    match entry.event with
    | .settime _ true => some entry.time
    | _ => none

namespace TimeSyncNode

/-- The cooldown after the last jump has not passed yet. -/
def InGrace (node : TimeSyncNode) : Prop :=
  ∃ start ∈ node.bootstrapTime, seconds (node.system - start) < node.cfg.postBootstrapGraceSec

instance (node : TimeSyncNode) : Decidable node.InGrace :=
  inferInstanceAs (Decidable (∃ start ∈ node.bootstrapTime, _))

/-- The mean of the window is beyond the threshold for a jump. -/
def FarOff (node : TimeSyncNode) : Prop :=
  node.cfg.bootstrapThresholdMs < |smoothedOffsetMs node.offsetWindow|

instance (node : TimeSyncNode) : Decidable node.FarOff := inferInstanceAs (Decidable (_ < _))

/-- The state wants the clock set. Only tracking waits for the cooldown. -/
def WantsJump (node : TimeSyncNode) : Prop :=
  match node.state with
  | .init => True
  | .bootstrap => False
  | .tracking => ¬ node.InGrace ∧ node.FarOff
  | .hold => node.FarOff

instance (node : TimeSyncNode) : Decidable node.WantsJump := by
  unfold WantsJump
  split <;> infer_instance

/-- `do_bootstrap` succeeds. -/
def CanJump (settimeFails : Bool) (node : TimeSyncNode) : Prop :=
  medianOffsetNs node.offsetWindow ≠ 0 ∧ settimeFails = false

instance (settimeFails : Bool) (node : TimeSyncNode) : Decidable (node.CanJump settimeFails) :=
  inferInstanceAs (Decidable (_ ∧ _))

/-- `time_ref_cb` sets the clock. -/
def Jumps (settimeFails : Bool) (msg : TimeReference) (node : TimeSyncNode) : Prop :=
  node.accepts msg ∧ (node.takeReference msg).WantsJump ∧
    (node.takeReference msg).CanJump settimeFails

instance (settimeFails : Bool) (msg : TimeReference) (node : TimeSyncNode) :
    Decidable (node.Jumps settimeFails msg) :=
  inferInstanceAs (Decidable (_ ∧ _ ∧ _))

/-- The clocks, the window and the jumps so far. -/
def clockwork (node : TimeSyncNode) : Config × Int × Int × Int × List Int × List Int :=
  (node.cfg, node.monotonic, node.nextTick, node.shift, node.offsetWindow, jumpTimes node.log)

@[simp] theorem any_bootstrapTime (node : TimeSyncNode) :
    (node.bootstrapTime.any fun start =>
      seconds (node.system - start) < node.cfg.postBootstrapGraceSec) = true ↔ node.InGrace := by
  unfold InGrace
  cases node.bootstrapTime <;> simp

theorem takeReference_offsetWindow (node : TimeSyncNode) (msg : TimeReference) :
    (node.takeReference msg).offsetWindow =
      pushOffset node.cfg.windowSize node.offsetWindow (node.offsetOf msg) := rfl

end TimeSyncNode

/-- The clock has not been set. The cooldown is only forgotten once it has passed. -/
structure Stays (before after : TimeSyncNode) : Prop where
  clockwork : after.clockwork = before.clockwork
  state : after.state = .init → before.state = .init
  bootstrapTime : after.bootstrapTime = before.bootstrapTime ∨
    after.bootstrapTime = none ∧ ¬ before.InGrace

section Stays

variable {before after : TimeSyncNode} (h : Stays before after)

include h

theorem Stays.cfg : after.cfg = before.cfg := congrArg (·.1) h.clockwork

theorem Stays.monotonic : after.monotonic = before.monotonic := congrArg (·.2.1) h.clockwork

theorem Stays.nextTick : after.nextTick = before.nextTick := congrArg (·.2.2.1) h.clockwork

theorem Stays.shift : after.shift = before.shift := congrArg (·.2.2.2.1) h.clockwork

theorem Stays.offsetWindow : after.offsetWindow = before.offsetWindow :=
  congrArg (·.2.2.2.2.1) h.clockwork

theorem Stays.jumpTimes : jumpTimes after.log = jumpTimes before.log :=
  congrArg (·.2.2.2.2.2) h.clockwork

end Stays

/-- The clock has been set, and what was measured on it has been dropped. -/
structure Clears (before after : TimeSyncNode) : Prop where
  cfg : after.cfg = before.cfg
  monotonic : after.monotonic = before.monotonic
  nextTick : after.nextTick = before.nextTick
  state : after.state = .init → before.state = .init
  offsetWindow : after.offsetWindow = []
  jumpTimes : jumpTimes after.log = before.monotonic :: jumpTimes before.log

/-- The clock has been set, and the cooldown has begun. -/
structure Sets (before after : TimeSyncNode) : Prop extends Clears before after where
  left : after.state ≠ .init
  bootstrapTime : after.bootstrapTime = some after.system

/-- An event that is no successful call of `clock_settime`. -/
def Event.setsNothing : Event → Bool
  | .settime _ succeeded => !succeeded
  | _ => true

theorem jumpTimes_record (node : TimeSyncNode) {event : Event} (hevent : event.setsNothing = true) :
    jumpTimes (node.record event).log = jumpTimes node.log := by
  unfold jumpTimes TimeSyncNode.record
  cases event <;> simp_all [Event.setsNothing]

@[simp] theorem clockwork_record (node : TimeSyncNode) {event : Event}
    (hevent : event.setsNothing = true) : (node.record event).clockwork = node.clockwork := by
  unfold TimeSyncNode.clockwork
  rw [jumpTimes_record node hevent]
  rfl

namespace Stays

variable {before after : TimeSyncNode}

theorem refl (node : TimeSyncNode) : Stays node node where
  clockwork := rfl
  state := id
  bootstrapTime := Or.inl rfl

/-- Recording another event is the last thing done. -/
theorem note {event : Event} (h : Stays before after) (hevent : event.setsNothing = true) :
    Stays before (after.record event) where
  clockwork := (clockwork_record after hevent).trans h.clockwork
  state := h.state
  bootstrapTime := h.bootstrapTime

theorem applySlew (h : Stays before after) (offsetMs : ℚ) :
    Stays before (after.applySlew offsetMs) := h.note rfl

theorem publishStatus (h : Stays before after) (format : String) (values : List ℚ) :
    Stays before (after.publishStatus format values) := h.note rfl

theorem enterTracking (h : Stays before after) :
    Stays before { after with state := .tracking, synced := true } where
  clockwork := h.clockwork
  state := fun hinit => State.noConfusion hinit
  bootstrapTime := h.bootstrapTime

/-- `bootstrap_time_.reset()`. -/
theorem endGrace {node : TimeSyncNode} (hover : ¬ node.InGrace)
    (h : Stays { node with bootstrapTime := none } after) : Stays node after where
  clockwork := h.clockwork
  state := h.state
  bootstrapTime := by
    rcases h.bootstrapTime with hnone | ⟨hnone, _⟩
    · exact Or.inr ⟨hnone, hover⟩
    · exact Or.inr ⟨hnone, hover⟩

end Stays

namespace Clears

variable {before after : TimeSyncNode}

theorem note {event : Event} (h : Clears before after) (hevent : event.setsNothing = true) :
    Clears before (after.record event) where
  cfg := h.cfg
  monotonic := h.monotonic
  nextTick := h.nextTick
  state := h.state
  offsetWindow := h.offsetWindow
  jumpTimes := (jumpTimes_record after hevent).trans h.jumpTimes

theorem enterTracking (h : Clears before after) :
    Clears before { after with state := .tracking, synced := true } where
  cfg := h.cfg
  monotonic := h.monotonic
  nextTick := h.nextTick
  state := fun hinit => State.noConfusion hinit
  offsetWindow := h.offsetWindow
  jumpTimes := h.jumpTimes

/-- `bootstrap_time_ = get_clock()->now()`. -/
theorem startGrace (h : Clears before after) (hleft : after.state ≠ .init) :
    Sets before { after with bootstrapTime := some after.system } where
  toClears := ⟨h.cfg, h.monotonic, h.nextTick, h.state, h.offsetWindow, h.jumpTimes⟩
  left := hleft
  bootstrapTime := rfl

end Clears

namespace Sets

variable {before after : TimeSyncNode}

theorem note {event : Event} (h : Sets before after) (hevent : event.setsNothing = true) :
    Sets before (after.record event) where
  toClears := h.toClears.note hevent
  left := h.left
  bootstrapTime := h.bootstrapTime

theorem publishStatus (h : Sets before after) (format : String) (values : List ℚ) :
    Sets before (after.publishStatus format values) := h.note rfl

theorem enterTracking (h : Sets before after) :
    Sets before { after with state := .tracking, synced := true } where
  toClears := h.toClears.enterTracking
  left := State.noConfusion
  bootstrapTime := h.bootstrapTime

end Sets

/-! ## The handlers -/

namespace TimeSyncNode

variable {settimeFails : Bool} {node : TimeSyncNode} {smoothedMs : ℚ}

theorem doBootstrap_stays (hcan : ¬ node.CanJump settimeFails) :
    ∃ after, node.doBootstrap settimeFails = (false, after) ∧ Stays node after := by
  unfold doBootstrap
  dsimp only
  split
  next => exact ⟨node, rfl, Stays.refl node⟩
  next hmedian =>
    have hfails : settimeFails = true := by simpa [CanJump, hmedian] using hcan
    rw [if_pos hfails]
    exact ⟨_, rfl, (Stays.refl node).note rfl⟩

theorem doBootstrap_clears (hcan : node.CanJump settimeFails) :
    ∃ after, node.doBootstrap settimeFails = (true, after) ∧ Clears node after := by
  obtain ⟨hmedian, rfl⟩ := hcan
  unfold doBootstrap
  simp only [if_neg hmedian]
  exact ⟨_, rfl, rfl, rfl, rfl, id, rfl, rfl⟩

theorem handleInit_stays (hcan : ¬ node.CanJump settimeFails) :
    Stays node (node.handleInit settimeFails) := by
  obtain ⟨after, hboot, hstays⟩ := doBootstrap_stays hcan
  unfold handleInit
  rw [hboot]
  exact hstays

theorem handleInit_sets (hcan : node.CanJump settimeFails) :
    Sets node (node.handleInit settimeFails) := by
  obtain ⟨after, hboot, hclears⟩ := doBootstrap_clears hcan
  unfold handleInit
  rw [hboot]
  apply Sets.publishStatus
  exact (hclears.enterTracking.note rfl).startGrace State.noConfusion

theorem handleTracking_stays (hjump : ¬ (¬ node.InGrace ∧
      node.cfg.bootstrapThresholdMs < |smoothedMs| ∧ node.CanJump settimeFails)) :
    Stays node (node.handleTracking settimeFails smoothedMs) := by
  unfold handleTracking
  simp only [any_bootstrapTime]
  split
  next => exact (Stays.refl node).applySlew smoothedMs
  next hover =>
    apply Stays.endGrace hover
    split
    next hfar =>
      have hcan : ¬ CanJump settimeFails { node with bootstrapTime := none } :=
        fun hcan => hjump ⟨hover, hfar, hcan⟩
      obtain ⟨after, hboot, hstays⟩ := doBootstrap_stays hcan
      rw [hboot]
      exact hstays.applySlew smoothedMs
    next =>
      split
      · exact ((Stays.refl _).applySlew smoothedMs).publishStatus _ _
      · exact (Stays.refl _).applySlew smoothedMs

theorem handleTracking_sets (hleft : node.state ≠ .init) (hover : ¬ node.InGrace)
    (hfar : node.cfg.bootstrapThresholdMs < |smoothedMs|) (hcan : node.CanJump settimeFails) :
    Sets node (node.handleTracking settimeFails smoothedMs) := by
  have hcan' : CanJump settimeFails { node with bootstrapTime := none } := hcan
  obtain ⟨after, hboot, hclears⟩ := doBootstrap_clears hcan'
  have hclears' : Clears node after :=
    ⟨hclears.cfg, hclears.monotonic, hclears.nextTick, hclears.state, hclears.offsetWindow,
      hclears.jumpTimes⟩
  unfold handleTracking
  simp only [any_bootstrapTime, if_neg hover, if_pos hfar, hboot]
  apply Sets.publishStatus
  exact hclears'.startGrace fun hinit => hleft (hclears.state hinit)

theorem handleHold_stays
    (hjump : ¬ (node.cfg.bootstrapThresholdMs < |smoothedMs| ∧ node.CanJump settimeFails)) :
    Stays node (node.handleHold settimeFails smoothedMs) := by
  unfold handleHold
  apply Stays.publishStatus
  apply Stays.note _ rfl
  apply Stays.enterTracking
  split
  next hfar =>
    obtain ⟨after, hboot, hstays⟩ := doBootstrap_stays fun hcan => hjump ⟨hfar, hcan⟩
    rw [hboot]
    exact hstays.applySlew smoothedMs
  next => exact (Stays.refl node).applySlew smoothedMs

theorem handleHold_sets (hleft : node.state ≠ .init)
    (hfar : node.cfg.bootstrapThresholdMs < |smoothedMs|) (hcan : node.CanJump settimeFails) :
    Sets node (node.handleHold settimeFails smoothedMs) := by
  obtain ⟨after, hboot, hclears⟩ := doBootstrap_clears hcan
  unfold handleHold
  rw [if_pos hfar, hboot]
  apply Sets.publishStatus
  apply Sets.note _ rfl
  apply Sets.enterTracking
  exact hclears.startGrace fun hinit => hleft (hclears.state hinit)

/-- `Jumps` says when a reference sets the clock. -/
theorem timeRefCb_sets {msg : TimeReference} (hjumps : node.Jumps settimeFails msg) :
    Sets (node.takeReference msg) (node.timeRefCb settimeFails msg) := by
  obtain ⟨haccepted, hwants, hcan⟩ := hjumps
  unfold WantsJump at hwants
  unfold timeRefCb
  rw [if_neg (not_not_intro haccepted)]
  apply Sets.note _ rfl
  cases hstate : (node.takeReference msg).state with
  | init => exact handleInit_sets hcan
  | bootstrap => simp [hstate] at hwants
  | tracking =>
      simp only [hstate] at hwants
      have hleft : (node.takeReference msg).state ≠ .init := by simp [hstate]
      exact handleTracking_sets hleft hwants.1 hwants.2 hcan
  | hold =>
      simp only [hstate] at hwants
      have hleft : (node.takeReference msg).state ≠ .init := by simp [hstate]
      exact handleHold_sets hleft hwants hcan

theorem timeRefCb_stays {msg : TimeReference} (haccepted : node.accepts msg)
    (hjumps : ¬ node.Jumps settimeFails msg) :
    Stays (node.takeReference msg) (node.timeRefCb settimeFails msg) := by
  have hnot : ¬ ((node.takeReference msg).WantsJump ∧
      (node.takeReference msg).CanJump settimeFails) := fun h => hjumps ⟨haccepted, h⟩
  unfold WantsJump at hnot
  unfold timeRefCb
  rw [if_neg (not_not_intro haccepted)]
  apply Stays.note _ rfl
  cases hstate : (node.takeReference msg).state with
  | init =>
      apply handleInit_stays
      simpa [hstate] using hnot
  | bootstrap => exact Stays.refl _
  | tracking =>
      apply handleTracking_stays
      simp only [hstate] at hnot
      exact fun ⟨hover, hfar, hcan⟩ => hnot ⟨⟨hover, hfar⟩, hcan⟩
  | hold =>
      apply handleHold_stays
      simp only [hstate] at hnot
      exact hnot

theorem checkGps_stays (node : TimeSyncNode) (last : Int) : Stays node (node.checkGps last) := by
  unfold checkGps
  dsimp only
  have hcounted : Stays node { node with gpsLostCount := node.gpsLostCount + 1 } :=
    ⟨rfl, id, Or.inl rfl⟩
  split
  · split
    · apply Stays.publishStatus
      apply Stays.note _ rfl
      exact ⟨rfl, fun hinit => State.noConfusion hinit, Or.inl rfl⟩
    · exact hcounted
  · exact Stays.refl node

theorem monitorCb_stays (node : TimeSyncNode) : Stays node node.monitorCb := by
  unfold monitorCb
  split
  next => exact Stays.refl node
  next =>
    split
    next => exact Stays.refl node
    next last _ =>
      have hchecked := checkGps_stays node last
      dsimp only
      split
      · have hprinted : Stays node (node.checkGps last).printSyncAccuracy := hchecked.note rfl
        exact ⟨hprinted.clockwork, hprinted.state, hprinted.bootstrapTime⟩
      · exact hchecked

end TimeSyncNode

end AcflyRos.TimeSync

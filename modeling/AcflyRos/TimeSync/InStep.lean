import AcflyRos.Foundation.Transition
import AcflyRos.TimeSync.Jumps

/-! # State, flag, publication and window

`state_`, `synced_`, what was published last on `~/synced`, and the window are changed in
several functions, some of which fall back on others when the clock cannot be set. They stay
in step: the flag and the publication say whether the state is tracking, and the window holds
what has been measured since the clock was set.
-/

namespace AcflyRos.TimeSync

open AcflyRos.Transition

/-- The value published last on `~/synced`. -/
def lastSynced (log : List Entry) : Option Bool :=
  log.findSome? fun entry =>
    match entry.event with
    | .publishedSynced synced => some synced
    | _ => none

/-- `clock_settime` is called, or `adjtimex` for a slew. -/
def Event.corrects : Event → Bool
  | .settime _ _ => true
  | .slew _ => true
  | _ => false

def corrections (log : List Entry) : List Entry := log.filter (·.event.corrects)

/-- What the other nodes see, next to the state. -/
def TimeSyncNode.face (node : TimeSyncNode) : State × Bool × Option Bool :=
  (node.state, node.synced, lastSynced node.log)

/-- The flag, and what was published if anything was, say whether the clock is tracked. -/
def Agrees : State × Bool × Option Bool → Prop
  | (state, synced, last) => (synced = true ↔ state = .tracking) ∧ ∀ value ∈ last, value = synced

theorem agrees_tracking : Agrees (.tracking, true, some true) := by simp [Agrees]

theorem agrees_hold : Agrees (.hold, false, some false) := by simp [Agrees]

/-! ## The handlers -/

namespace TimeSyncNode

section Handlers

variable (settimeFails : Bool) (smoothedMs : ℚ) (node : TimeSyncNode)

theorem doBootstrap_face : (node.doBootstrap settimeFails).2.face = node.face := by
  unfold doBootstrap
  dsimp only
  split
  next => rfl
  next => cases settimeFails <;> rfl

/-- Without a jump nothing changes. -/
theorem handleInit_face : (node.handleInit settimeFails).face = node.face ∨
    (node.handleInit settimeFails).face = (.tracking, true, some true) := by
  have hface := node.doBootstrap_face settimeFails
  unfold handleInit
  cases hboot : node.doBootstrap settimeFails with
  | mk succeeded after =>
      rw [hboot] at hface
      cases succeeded with
      | true => exact Or.inr rfl
      | false => exact Or.inl hface

theorem handleTracking_face : (node.handleTracking settimeFails smoothedMs).face = node.face := by
  have hface := { node with bootstrapTime := none }.doBootstrap_face settimeFails
  unfold handleTracking
  split
  next => rfl
  next =>
    dsimp only
    split
    next =>
      cases hboot : { node with bootstrapTime := none }.doBootstrap settimeFails with
      | mk succeeded after =>
          rw [hboot] at hface
          cases succeeded <;> exact hface
    next => split <;> rfl

theorem timeRefCb_agrees {msg : TimeReference} (h : Agrees node.face) :
    Agrees (node.timeRefCb settimeFails msg).face := by
  unfold timeRefCb
  split
  next => exact h
  next =>
    have htaken : Agrees (node.takeReference msg).face := h
    dsimp only
    cases hstate : (node.takeReference msg).state with
    | init =>
        show Agrees ((node.takeReference msg).handleInit settimeFails).face
        rcases (node.takeReference msg).handleInit_face settimeFails with hsame | htracking
        · rw [hsame]
          exact htaken
        · rw [htracking]
          exact agrees_tracking
    | bootstrap => exact htaken
    | tracking =>
        show Agrees (handleTracking _ _ _).face
        rw [handleTracking_face]
        exact htaken
    -- Whether the clock could be set or not.
    | hold => exact agrees_tracking

theorem checkGps_face (last : Int) : (node.checkGps last).face = node.face ∨
    (node.checkGps last).face = (.hold, false, some false) := by
  unfold checkGps
  split
  next =>
    dsimp only
    split
    next => exact Or.inr rfl
    next => exact Or.inl rfl
  next => exact Or.inl rfl

theorem monitorCb_face : node.monitorCb.face = node.face ∨
    node.monitorCb.face = (.hold, false, some false) := by
  unfold monitorCb
  split
  next => exact Or.inl rfl
  next =>
    split
    next => exact Or.inl rfl
    next last _ =>
      dsimp only
      split
      next => exact node.checkGps_face last
      next => exact node.checkGps_face last

theorem monitorCb_corrections : corrections node.monitorCb.log = corrections node.log := by
  have hchecked : ∀ last, corrections (node.checkGps last).log = corrections node.log := by
    intro last
    unfold checkGps
    split
    next =>
      dsimp only
      split <;> rfl
    next => rfl
  unfold monitorCb
  split
  next => rfl
  next =>
    split
    next => rfl
    next last _ =>
      dsimp only
      split
      next => exact hchecked last
      next => exact hchecked last

end Handlers

end TimeSyncNode

/-! ## Steps -/

/-- The offset that a callback adds to the window, in case it processes a valid reference. -/
def processed (node : TimeSyncNode) (label : Label) : List Int :=
  match label.request with
  | .timeReference msg =>
      if (node.advance label.wait).accepts msg then [(node.advance label.wait).offsetOf msg] else []
  | _ => []

/-- The clock is only corrected while a valid reference is processed. -/
def CorrectsOnReference (node : TimeSyncNode) (label : Label) : Prop :=
  corrections (step node label).log = corrections node.log ∨
    ∃ msg, label.request = .timeReference msg ∧ (node.advance label.wait).accepts msg

/-- The node, and the offsets of the valid references since the last jump, oldest first. -/
structure Recorded where
  node : TimeSyncNode
  offsets : List Int := []

def Recorded.step (recorded : Recorded) (label : Label) : Recorded :=
  let after := TimeSync.step recorded.node label
  { node := after
    offsets :=
      if jumpTimes after.log = jumpTimes recorded.node.log then
        recorded.offsets ++ processed recorded.node label
      else [] }

structure InStep (recorded : Recorded) : Prop where
  agrees : Agrees recorded.node.face
  window : 1 ≤ recorded.node.cfg.windowSize → recorded.node.offsetWindow =
    recorded.offsets.drop (recorded.offsets.length - recorded.node.cfg.windowSize.toNat)

theorem step_correctsOnReference (node : TimeSyncNode) (label : Label) :
    CorrectsOnReference node label := by
  unfold CorrectsOnReference TimeSync.step
  cases hrequest : label.request with
  | timesyncStatus rtt => exact Or.inl rfl
  | monitor => exact Or.inl node.tick.monitorCb_corrections
  | timeReference msg =>
      by_cases haccepted : (node.advance label.wait).accepts msg
      · exact Or.inr ⟨msg, rfl, haccepted⟩
      · have hrejected : (node.advance label.wait).timeRefCb label.settimeFails msg =
            node.advance label.wait := if_pos haccepted
        left
        simp only [hrejected]
        rfl

/-- The window after one more offset. -/
theorem pushOffset_drop {windowSize : Int} (hsize : 1 ≤ windowSize) (offsets : List Int)
    (offset : Int) :
    pushOffset windowSize (offsets.drop (offsets.length - windowSize.toNat)) offset =
      (offsets ++ [offset]).drop ((offsets ++ [offset]).length - windowSize.toNat) := by
  unfold pushOffset
  dsimp only
  rw [List.length_append, List.length_append, List.length_singleton, List.length_drop]
  by_cases hfull : windowSize.toNat ≤ offsets.length
  · rw [if_pos (by omega), ← List.drop_one, ← List.drop_append_of_le_length (by omega),
      List.drop_drop]
    congr 1
    omega
  · have hroom : offsets.length - windowSize.toNat = 0 := by omega
    have hroom' : offsets.length + 1 - windowSize.toNat = 0 := by omega
    rw [if_neg (by omega), hroom, hroom', List.drop_zero, List.drop_zero]

/-- Unless the clock is set, the offset of a valid reference is all that the window gains. -/
theorem step_window (node : TimeSyncNode) (label : Label) :
    (step node label).cfg = node.cfg ∧
      (jumpTimes (step node label).log = jumpTimes node.log ∧ (step node label).offsetWindow =
          (processed node label).foldl (pushOffset node.cfg.windowSize) node.offsetWindow ∨
        jumpTimes (step node label).log ≠ jumpTimes node.log ∧
          (step node label).offsetWindow = []) := by
  unfold TimeSync.step processed
  cases label.request with
  | timesyncStatus rtt => exact ⟨rfl, Or.inl ⟨rfl, rfl⟩⟩
  | monitor =>
      have hstays := node.tick.monitorCb_stays
      exact ⟨hstays.cfg, Or.inl ⟨hstays.jumpTimes, hstays.offsetWindow⟩⟩
  | timeReference msg =>
      dsimp only
      by_cases haccepted : (node.advance label.wait).accepts msg
      · rw [if_pos haccepted]
        have htaken : jumpTimes ((node.advance label.wait).takeReference msg).log =
            jumpTimes node.log := jumpTimes_record _ rfl
        by_cases hjumps : (node.advance label.wait).Jumps label.settimeFails msg
        · have hsets := TimeSyncNode.timeRefCb_sets hjumps
          refine ⟨hsets.cfg, Or.inr ⟨?_, hsets.offsetWindow⟩⟩
          rw [hsets.jumpTimes, htaken]
          exact List.cons_ne_self _ _
        · have hstays := TimeSyncNode.timeRefCb_stays haccepted hjumps
          exact ⟨hstays.cfg, Or.inl ⟨hstays.jumpTimes.trans htaken, hstays.offsetWindow⟩⟩
      · have hrejected : (node.advance label.wait).timeRefCb label.settimeFails msg =
            node.advance label.wait := if_pos haccepted
        rw [if_neg haccepted, hrejected]
        exact ⟨rfl, Or.inl ⟨rfl, rfl⟩⟩

theorem length_processed_le (node : TimeSyncNode) (label : Label) :
    (processed node label).length ≤ 1 := by
  unfold processed
  split
  next => split <;> simp
  next => simp

theorem step_agrees {node : TimeSyncNode} (h : Agrees node.face) (label : Label) :
    Agrees (step node label).face := by
  unfold TimeSync.step
  split
  next msg _ => exact (node.advance label.wait).timeRefCb_agrees label.settimeFails h
  next => exact h
  next =>
    rcases node.tick.monitorCb_face with hsame | hhold
    · rw [hsame]
      exact h
    · rw [hhold]
      exact agrees_hold

theorem InStep.step {recorded : Recorded} (h : InStep recorded) (label : Label) :
    InStep (recorded.step label) where
  agrees := step_agrees h.agrees label
  window := by
    obtain ⟨hcfg, ⟨hjumps, hwindow⟩ | ⟨hjumps, hwindow⟩⟩ := step_window recorded.node label
    · show 1 ≤ (TimeSync.step recorded.node label).cfg.windowSize → _
      simp only [Recorded.step, hcfg, if_pos hjumps, hwindow]
      intro hsize
      rw [h.window hsize]
      have hone := length_processed_le recorded.node label
      generalize processed recorded.node label = added at hone ⊢
      match added with
      | [] => simp
      | [offset] => exact pushOffset_drop hsize recorded.offsets offset
      | _ :: _ :: _ => simp at hone
    · simp [Recorded.step, if_neg hjumps, hwindow]

/-- In every run the state, the flag and the last publication agree, the window holds the last
offsets since the clock was set, and the clock is only corrected for valid references. -/
theorem run_inStep (cfg : Config) (monotonic system : Int) (labels : List Label) :
    InStep (run Recorded.step { node := initial cfg monotonic system } labels) ∧
      (∀ entry ∈ (initial cfg monotonic system).log, entry.event.corrects = false) ∧
      EveryStep step CorrectsOnReference (initial cfg monotonic system) labels := by
  refine ⟨?_, ?_, ?_⟩
  · apply run_invariant Recorded.step InStep (fun _ label h => h.step label)
    exact ⟨by simp [Agrees, TimeSyncNode.face, lastSynced, initial, TimeSyncNode.publishStatus,
      TimeSyncNode.record], fun _ => List.drop_nil.symm⟩
  · simp [initial, TimeSyncNode.publishStatus, TimeSyncNode.record, Event.corrects]
  · exact everyStep_of_invariant step (fun _ => True) (fun _ _ _ => trivial)
      (fun node label _ => step_correctsOnReference node label) labels trivial

end AcflyRos.TimeSync

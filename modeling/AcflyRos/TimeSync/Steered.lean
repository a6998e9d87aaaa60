import AcflyRos.TimeSync.InStep
import AcflyRos.TimeSync.SlewLoop

/-! # The node in the loop

`time_sync_node.cpp` takes the steps of the loop once it tracks GPS time, and nothing else
moves the clock. A short window then damps the offset; a longer one makes it overshoot.
-/

namespace AcflyRos.TimeSync

open AcflyRos.Transition

/-- By how much the kernel has been asked to slew, in nanoseconds. -/
def slewedNs (log : List Entry) : Int :=
  (log.map fun entry =>
    match entry.event with
    | .slew offsetUs => 1000 * offsetUs
    | _ => 0).sum

/-- A node with the clock it corrects. -/
structure Steered where
  node : TimeSyncNode
  /-- By how much GPS time is ahead of the system clock. -/
  offset : Int
  /-- When the last sample came, on the monotonic clock. -/
  sampled : Option Int := none
  deriving DecidableEq, Repr

namespace Steered

/-- The kernel slews the clock at once, by all that it is asked for. -/
def step (steered : Steered) (label : Label) : Steered :=
  let after := TimeSync.step steered.node label
  { node := after
    offset := steered.offset - (after.shift - steered.node.shift) -
      (slewedNs after.log - slewedNs steered.node.log)
    sampled :=
      match label.request with
      | .timeReference _ => some after.monotonic
      | _ => steered.sampled }

/-- The clock is kept beside the node, which takes the same steps. -/
theorem run_node (labels : List Label) (steered : Steered) :
    (run step steered labels).node = run TimeSync.step steered.node labels :=
  run_project TimeSync.step step Steered.node (fun _ _ => rfl) steered labels

/-- Samples come every second, and measure the offset without noise. -/
def Ideal (steered : Steered) (label : Label) : Prop :=
  ∀ msg, label.request = .timeReference msg →
    (steered.node.advance label.wait).accepts msg ∧
    (steered.node.advance label.wait).offsetOf msg = steered.offset ∧
    ∀ last ∈ steered.sampled, (steered.node.advance label.wait).monotonic = last + 1000000000

/-- The clock is being slewed, and the window has just been emptied. -/
structure Emptied (windowSize : Int) (steered : Steered) : Prop where
  size : steered.node.cfg.windowSize = windowSize
  tracking : steered.node.state = .tracking
  offsetWindow : steered.node.offsetWindow = []
  sampled : steered.sampled = none
  near : |nsToMs steered.offset| ≤ steered.node.cfg.bootstrapThresholdMs

/-- So far the clock has only been slewed. -/
structure Slewing (windowSize : Int) (steered : Steered) : Prop where
  size : steered.node.cfg.windowSize = windowSize
  state : steered.node.state = .tracking ∨ steered.node.state = .hold
  near : ∀ sample ∈ steered.offset :: steered.node.offsetWindow,
    |nsToMs sample| ≤ steered.node.cfg.bootstrapThresholdMs

/-- The step damps the offset. -/
def Dampens (steered : Steered) (label : Label) : Prop :=
  Damps steered.offset (steered.step label).offset

def loop (steered : Steered) : Loop := ⟨steered.offset, steered.node.offsetWindow⟩

end Steered

/-! ## The node takes the steps of the loop -/

theorem slewedNs_cons (entry : Entry) (log : List Entry) :
    slewedNs (entry :: log) = slewedNs [entry] + slewedNs log := by simp [slewedNs]

theorem slewedNs_corrections (log : List Entry) : slewedNs (corrections log) = slewedNs log := by
  induction log with
  | nil => rfl
  | cons entry rest ih =>
      obtain ⟨time, event⟩ := entry
      rw [slewedNs_cons, ← ih]
      cases event <;> simp [corrections, Event.corrects, slewedNs]

theorem abs_nsToMs_le {ns other : Int} (hle : |ns| ≤ |other|) : |nsToMs ns| ≤ |nsToMs other| := by
  unfold nsToMs
  rw [abs_div, abs_div, ← Int.cast_abs, ← Int.cast_abs]
  exact div_le_div_of_nonneg_right (Int.cast_le.mpr hle) (abs_nonneg _)

theorem mem_of_mem_pushOffset {windowSize offset sample : Int} {window : List Int}
    (hsample : sample ∈ pushOffset windowSize window offset) : sample ∈ offset :: window := by
  have happended : sample ∈ window ++ [offset] := by
    unfold pushOffset at hsample
    dsimp only at hsample
    split at hsample
    next => exact List.mem_of_mem_tail hsample
    next => exact hsample
  simpa [or_comm] using happended

theorem abs_smoothedOffsetMs_le {window : List Int} {thresholdMs : ℚ}
    (hthreshold : 0 ≤ thresholdMs) (h : ∀ sample ∈ window, |nsToMs sample| ≤ thresholdMs) :
    |smoothedOffsetMs window| ≤ thresholdMs := by
  by_cases hempty : window = []
  · rwa [hempty, smoothedOffsetMs, if_pos rfl, abs_zero]
  have hsome : averaged window ≠ [] := by
    by_cases hfew : window.length < 10
    · rwa [averaged_of_few hfew]
    · rw [← List.length_pos_iff, length_averaged_of_many (not_lt.mp hfew)]
      omega
  have hbetween := between_smoothedOffsetMs_of_averaged hsome fun sample hsample =>
    ⟨sample, averaged_subset hsample, sample, averaged_subset hsample, le_rfl, le_rfl⟩
  obtain ⟨low, hlow, high, hhigh, hle, hle'⟩ := hbetween
  obtain ⟨least, hleast, rfl⟩ := List.mem_map.mp hlow
  obtain ⟨most, hmost, rfl⟩ := List.mem_map.mp hhigh
  exact abs_le.mpr
    ⟨(abs_le.mp (h least hleast)).1.trans hle, hle'.trans (abs_le.mp (h most hmost)).2⟩

namespace TimeSyncNode

section Near

variable (settimeFails : Bool) {smoothedMs : ℚ} {node : TimeSyncNode}
  (hnear : |smoothedMs| ≤ node.cfg.bootstrapThresholdMs)

include hnear

theorem handleTracking_corrections :
    corrections (node.handleTracking settimeFails smoothedMs).log =
      ⟨node.monotonic, .slew (slewUs smoothedMs)⟩ :: corrections node.log := by
  unfold handleTracking
  split
  next => rfl
  next =>
    dsimp only
    rw [if_neg (not_lt.mpr hnear)]
    split <;> rfl

theorem handleHold_corrections :
    corrections (node.handleHold settimeFails smoothedMs).log =
      ⟨node.monotonic, .slew (slewUs smoothedMs)⟩ :: corrections node.log := by
  unfold handleHold
  rw [if_neg (not_lt.mpr hnear)]
  rfl

end Near

/-- A reference within the threshold slews the clock. -/
theorem timeRefCb_slews (settimeFails : Bool) {node : TimeSyncNode} {msg : TimeReference}
    (haccepted : node.accepts msg) (hstate : node.state = .tracking ∨ node.state = .hold)
    (hnear : ¬ (node.takeReference msg).FarOff) :
    Stays (node.takeReference msg) (node.timeRefCb settimeFails msg) ∧
      ((node.timeRefCb settimeFails msg).state = .tracking ∨
        (node.timeRefCb settimeFails msg).state = .hold) ∧
      corrections (node.timeRefCb settimeFails msg).log =
        ⟨node.monotonic, .slew (slewUs (smoothedOffsetMs (node.takeReference msg).offsetWindow))⟩ ::
          corrections node.log := by
  have hwants : ¬ (node.takeReference msg).WantsJump := by
    have htaken : (node.takeReference msg).state = node.state := rfl
    unfold WantsJump
    rw [htaken]
    rcases hstate with htracking | hhold
    · rw [htracking]
      exact fun hboth => hnear hboth.2
    · rw [hhold]
      exact hnear
  refine ⟨timeRefCb_stays haccepted fun hjumps => hwants hjumps.2.1, ?_⟩
  have hwithin := not_lt.mp hnear
  unfold timeRefCb
  rw [if_neg (not_not.mpr haccepted)]
  dsimp only
  rcases hstate with htracking | hhold
  · have htaken : (node.takeReference msg).state = .tracking := htracking
    rw [htaken]
    refine ⟨Or.inl ?_, handleTracking_corrections settimeFails hwithin⟩
    have hface := (node.takeReference msg).handleTracking_face settimeFails
      (smoothedOffsetMs (node.takeReference msg).offsetWindow)
    exact (congrArg (·.1) hface).trans htaken
  · have htaken : (node.takeReference msg).state = .hold := hhold
    rw [htaken]
    exact ⟨Or.inl rfl, handleHold_corrections settimeFails hwithin⟩

end TimeSyncNode

namespace Steered

variable {windowSize : Int} {steered : Steered} {label : Label}

theorem loop_of_same
    (hwindow : (steered.step label).node.offsetWindow = steered.node.offsetWindow)
    (hshift : (steered.step label).node.shift = steered.node.shift)
    (hcorrections : corrections (steered.step label).node.log = corrections steered.node.log) :
    (steered.step label).loop = steered.loop := by
  have hslewed : slewedNs (steered.step label).node.log = slewedNs steered.node.log := by
    rw [← slewedNs_corrections, hcorrections, slewedNs_corrections]
  have hoffset : (steered.step label).offset = steered.offset := by
    show steered.offset - ((steered.step label).node.shift - steered.node.shift) -
      (slewedNs (steered.step label).node.log - slewedNs steered.node.log) = _
    rw [hshift, hslewed, sub_self, sub_self, sub_zero, sub_zero]
  unfold loop
  rw [hwindow, hoffset]

/-- References take the loop a step further. -/
theorem Slewing.step_reference (h : steered.Slewing windowSize) (hideal : steered.Ideal label)
    {msg : TimeReference} (hrequest : label.request = .timeReference msg) :
    Stays ((steered.node.advance label.wait).takeReference msg) (steered.step label).node ∧
      ((steered.step label).node.state = .tracking ∨ (steered.step label).node.state = .hold) ∧
      (steered.step label).loop = steered.loop.next windowSize := by
  obtain ⟨haccepted, hoffset, _⟩ := hideal msg hrequest
  have hwindow : ((steered.node.advance label.wait).takeReference msg).offsetWindow =
      pushOffset windowSize steered.node.offsetWindow steered.offset := by
    rw [TimeSyncNode.takeReference_offsetWindow, hoffset, ← h.size]
    rfl
  have hnear : ¬ ((steered.node.advance label.wait).takeReference msg).FarOff := by
    apply not_lt.mpr
    rw [hwindow]
    apply abs_smoothedOffsetMs_le ((abs_nonneg _).trans (h.near _ List.mem_cons_self))
    exact fun sample hsample => h.near sample (mem_of_mem_pushOffset hsample)
  obtain ⟨hstays, hstate, hcorrections⟩ :=
    TimeSyncNode.timeRefCb_slews label.settimeFails haccepted h.state hnear
  have hafter : (steered.step label).node =
      (steered.node.advance label.wait).timeRefCb label.settimeFails msg := by
    show TimeSync.step steered.node label = _
    unfold TimeSync.step
    rw [hrequest]
  have hslewed := congrArg slewedNs hcorrections
  rw [slewedNs_cons, slewedNs_corrections, slewedNs_corrections, hwindow, ← hafter] at hslewed
  rw [← hafter] at hstays hstate
  refine ⟨hstays, hstate, ?_⟩
  have hshift : (steered.step label).node.shift = steered.node.shift := hstays.shift
  have hlog : (steered.node.advance label.wait).log = steered.node.log := rfl
  have hslewedNow : (steered.step label).offset = steered.offset - 1000 * TimeSyncNode.slewUs
      (smoothedOffsetMs (pushOffset windowSize steered.node.offsetWindow steered.offset)) := by
    show steered.offset - ((steered.step label).node.shift - steered.node.shift) -
      (slewedNs (steered.step label).node.log - slewedNs steered.node.log) = _
    rw [hshift, hslewed, hlog]
    simp [slewedNs]
  unfold loop Loop.next
  rw [hslewedNow, hstays.offsetWindow, hwindow]

/-- Nothing else changes the loop. -/
theorem Slewing.step_other (h : steered.Slewing windowSize) (label : Label)
    (hrequest : ∀ msg, label.request ≠ .timeReference msg) :
    (steered.step label).node.cfg = steered.node.cfg ∧
      ((steered.step label).node.state = .tracking ∨ (steered.step label).node.state = .hold) ∧
      (steered.step label).loop = steered.loop := by
  cases hkind : label.request with
  | timeReference msg => exact absurd hkind (hrequest msg)
  | timesyncStatus rtt =>
      have hafter : (steered.step label).node = (steered.node.advance label.wait).tsyncCb rtt := by
        show TimeSync.step steered.node label = _
        unfold TimeSync.step
        rw [hkind]
      rw [loop_of_same (hafter ▸ rfl) (hafter ▸ rfl) (hafter ▸ rfl), hafter]
      exact ⟨rfl, h.state, rfl⟩
  | monitor =>
      have hafter : (steered.step label).node = steered.node.tick.monitorCb := by
        show TimeSync.step steered.node label = _
        unfold TimeSync.step
        rw [hkind]
      have hstays := steered.node.tick.monitorCb_stays
      have hcorrections := steered.node.tick.monitorCb_corrections
      rw [← hafter] at hstays hcorrections
      refine ⟨hstays.cfg, ?_, loop_of_same hstays.offsetWindow hstays.shift hcorrections⟩
      rw [hafter]
      rcases steered.node.tick.monitorCb_face with hsame | hhold
      · have hstate : steered.node.tick.monitorCb.state = steered.node.state :=
          congrArg (·.1) hsame
        exact hstate ▸ h.state
      · exact Or.inr (congrArg (·.1) hhold)

theorem Slewing.step_loop (h : steered.Slewing windowSize) (hideal : steered.Ideal label) :
    (steered.step label).node.cfg = steered.node.cfg ∧
      ((steered.step label).node.state = .tracking ∨ (steered.step label).node.state = .hold) ∧
      ((steered.step label).loop = steered.loop ∨
        (steered.step label).loop = steered.loop.next windowSize) := by
  by_cases hreference : ∃ msg, label.request = .timeReference msg
  · obtain ⟨msg, hrequest⟩ := hreference
    obtain ⟨hstays, hstate, hloop⟩ := h.step_reference hideal hrequest
    exact ⟨hstays.cfg, hstate, Or.inr hloop⟩
  · obtain ⟨hcfg, hstate, hloop⟩ := h.step_other label (not_exists.mp hreference)
    exact ⟨hcfg, hstate, Or.inl hloop⟩

/-- A step that damps the offset stays within the threshold. -/
theorem Slewing.step (h : steered.Slewing windowSize) (hideal : steered.Ideal label)
    (hdamps : Damps steered.offset (steered.step label).offset) :
    (steered.step label).Slewing windowSize := by
  obtain ⟨hcfg, hstate, hloop⟩ := h.step_loop hideal
  refine ⟨hcfg ▸ h.size, hstate, ?_⟩
  rw [hcfg]
  intro sample hsample
  rcases List.mem_cons.mp hsample with rfl | hold
  · exact (abs_nsToMs_le hdamps.1).trans (h.near _ List.mem_cons_self)
  · rcases hloop with hsame | hnext
    · have hwindow : (steered.step label).node.offsetWindow = steered.node.offsetWindow :=
        congrArg Loop.window hsame
      exact h.near sample (List.mem_cons_of_mem _ (hwindow ▸ hold))
    · have hwindow : (steered.step label).node.offsetWindow =
          pushOffset windowSize steered.node.offsetWindow steered.offset :=
        congrArg Loop.window hnext
      exact h.near sample (mem_of_mem_pushOffset (hwindow ▸ hold))

theorem Emptied.slewing (h : steered.Emptied windowSize) : steered.Slewing windowSize where
  size := h.size
  state := Or.inl h.tracking
  near := by
    rw [h.offsetWindow]
    intro sample hsample
    rw [List.mem_singleton.mp hsample]
    exact h.near

theorem Emptied.settles (h : steered.Emptied windowSize) (hleast : 1 ≤ windowSize) :
    steered.loop.Settles windowSize ∨ steered.loop.neg.Settles windowSize := by
  unfold loop
  rw [h.offsetWindow]
  rcases le_total 0 steered.offset with hahead | hbehind
  · exact Or.inl (Loop.settles_empty hahead hleast)
  · exact Or.inr (Loop.settles_empty (neg_nonneg.mpr hbehind) hleast)

/-- With a short window every sample damps the offset. -/
theorem everyStep_damps (hleast : 1 ≤ windowSize) (hmost : windowSize ≤ 13) {labels : List Label}
    (h : steered.Slewing windowSize)
    (hsettles : steered.loop.Settles windowSize ∨ steered.loop.neg.Settles windowSize)
    (hideal : EveryStep Steered.step Ideal steered labels) :
    EveryStep Steered.step Dampens steered labels := by
  induction labels generalizing steered with
  | nil => trivial
  | cons label rest ih =>
      have hstep : ((steered.step label).loop.Settles windowSize ∨
          (steered.step label).loop.neg.Settles windowSize) ∧
          Damps steered.offset (steered.step label).offset := by
        obtain ⟨_, _, hsame | hnext⟩ := h.step_loop hideal.1
        · have hoffset : (steered.step label).offset = steered.offset :=
            congrArg Loop.offset hsame
          rw [hsame, hoffset]
          exact ⟨hsettles, le_rfl, mul_self_nonneg _⟩
        · have hoffset : (steered.step label).offset = (steered.loop.next windowSize).offset :=
            congrArg Loop.offset hnext
          rw [hnext, hoffset]
          exact Loop.damps_next hleast hmost hsettles
      exact ⟨hstep.2, ih (h.step hideal.1 hstep.2) hstep.1 hideal.2⟩

/-! ## Long windows -/

/-- The next sample may come at once. -/
structure Due (windowSize : Int) (steered : Steered) : Prop extends
    Slewing windowSize steered where
  cfg : steered.node.cfg = { windowSize }
  nextTick : steered.node.nextTick = steered.node.monotonic + monitorPeriod
  sampled : ∀ last ∈ steered.sampled, steered.node.monotonic = last + 1000000000

end Steered

/-- A reference that is so far ahead of its stamp, for less than a second. -/
def referenceAt (difference : Int) : TimeReference where
  stamp := ⟨1700000000, UInt32.ofNat (-difference).toNat⟩
  timeRef := ⟨1700000000, UInt32.ofNat difference.toNat⟩

theorem referenceAt_difference {difference : Int} (hle : |difference| < 1000000000) :
    (referenceAt difference).timeRef.toNs - (referenceAt difference).stamp.toNs = difference := by
  have hrange := abs_lt.mp hle
  unfold referenceAt Stamp.toNs
  dsimp only
  rw [UInt32.toNat_ofNat', UInt32.toNat_ofNat', Nat.mod_eq_of_lt (by omega),
    Nat.mod_eq_of_lt (by omega)]
  omega

namespace Steered

variable {windowSize : Int} {steered : Steered}

theorem Due.advance (h : steered.Due windowSize) : steered.node.advance 0 = steered.node := by
  have hmin : min (steered.node.monotonic + (0 : Nat)) steered.node.nextTick =
      steered.node.monotonic := by
    rw [h.nextTick, monitorPeriod]
    omega
  unfold TimeSyncNode.advance
  rw [hmin]

theorem Due.abs_offset_le (h : steered.Due windowSize) : |steered.offset| ≤ 500000000 := by
  have hnear := h.near _ List.mem_cons_self
  have hthreshold : steered.node.cfg.bootstrapThresholdMs = 500 := by rw [h.cfg]
  rw [hthreshold, nsToMs, abs_div, abs_of_pos (by norm_num : (0 : ℚ) < 1000000),
    div_le_iff₀ (by norm_num), ← Int.cast_abs] at hnear
  have hcast : (|steered.offset| : ℚ) ≤ (500000000 : Int) := by
    norm_num at hnear ⊢
    exact hnear
  exact_mod_cast hcast

theorem Due.exists_compensation (h : steered.Due windowSize) :
    ∃ compensation : Int, 0 ≤ compensation ∧ compensation < 25000000 ∧
      ∀ msg, steered.node.offsetOf msg = msg.timeRef.toNs - msg.stamp.toNs + compensation := by
  have hrtt : steered.node.cfg.rttMaxNs = 50000000 := by
    rw [h.cfg]
    show truncate (50 * 1000000) = 50000000
    decide +kernel
  unfold TimeSyncNode.offsetOf
  rw [hrtt]
  by_cases hshort : 0 < steered.node.rttNs ∧ steered.node.rttNs < 50000000
  · refine ⟨steered.node.rttNs.tdiv 2, ?_, ?_, fun msg => if_pos hshort⟩
    · rw [Int.tdiv_eq_ediv_of_nonneg hshort.1.le]
      omega
    · rw [Int.tdiv_eq_ediv_of_nonneg hshort.1.le]
      omega
  · exact ⟨0, le_rfl, by norm_num, fun msg => (if_neg hshort).trans (add_zero _).symm⟩

/-- Whatever the round trip, some reference measures the offset. -/
theorem Due.exists_ideal (h : steered.Due windowSize) :
    ∃ msg, steered.Ideal { request := .timeReference msg } := by
  obtain ⟨compensation, hnonneg, hsmall, hoffsetOf⟩ := h.exists_compensation
  have hoffset := abs_le.mp h.abs_offset_le
  refine ⟨referenceAt (steered.offset - compensation), ?_⟩
  intro msg hrequest
  cases hrequest
  rw [h.advance]
  refine ⟨?_, ?_, h.sampled⟩
  · unfold TimeSyncNode.accepts
    rw [h.cfg]
    show minGpsYearToEpoch 2020 ≤ (1700000000 : Int32).toInt
    decide
  · rw [hoffsetOf, referenceAt_difference (abs_lt.mpr ⟨by omega, by omega⟩)]
    omega

/-- The monitor timer fires so many times. -/
def ticks (n : Nat) : List Label := List.replicate n { request := .monitor }

theorem ideal_ticks (n : Nat) (steered : Steered) :
    EveryStep Steered.step Ideal steered (ticks n) := by
  induction n generalizing steered with
  | zero => trivial
  | succ n ih => exact ⟨fun msg hrequest => Request.noConfusion hrequest, ih _⟩

/-- Meanwhile only time passes. -/
structure Waits (before : Steered) (n : Nat) (after : Steered) : Prop where
  cfg : after.node.cfg = before.node.cfg
  loop : after.loop = before.loop
  sampled : after.sampled = before.sampled
  monotonic : after.node.monotonic = before.node.monotonic + n * monitorPeriod
  nextTick : after.node.nextTick = after.node.monotonic + monitorPeriod

theorem Slewing.ticks (h : steered.Slewing windowSize)
    (hnext : steered.node.nextTick = steered.node.monotonic + monitorPeriod) (n : Nat) :
    (run Steered.step steered (ticks n)).Slewing windowSize ∧
      Waits steered n (run Steered.step steered (ticks n)) := by
  induction n generalizing steered with
  | zero => exact ⟨h, rfl, rfl, rfl, by simp [Steered.ticks], hnext⟩
  | succ n ih =>
      obtain ⟨hcfg, _, hloop⟩ := h.step_other { request := .monitor }
        fun msg hrequest => Request.noConfusion hrequest
      have hstays := steered.node.tick.monitorCb_stays
      have hoffset : (steered.step { request := .monitor }).offset = steered.offset :=
        congrArg Loop.offset hloop
      have hideal : steered.Ideal { request := .monitor } :=
        fun msg hrequest => Request.noConfusion hrequest
      have hslewing := h.step hideal ⟨by rw [hoffset], by rw [hoffset]; exact mul_self_nonneg _⟩
      have hmonotonic : (steered.step { request := .monitor }).node.monotonic =
          steered.node.nextTick := hstays.monotonic
      have hnextTick : (steered.step { request := .monitor }).node.nextTick =
          steered.node.nextTick + monitorPeriod := hstays.nextTick
      obtain ⟨hlater, hwaits⟩ := ih hslewing (by rw [hnextTick, hmonotonic])
      refine ⟨hlater, hwaits.cfg.trans hcfg, hwaits.loop.trans hloop, hwaits.sampled, ?_,
        hwaits.nextTick⟩
      have htime := hwaits.monotonic
      rw [hmonotonic, hnext] at htime
      rw [show Steered.ticks (n + 1) = { request := .monitor } :: Steered.ticks n from rfl,
        run_cons, htime]
      push_cast
      ring

/-- A sample that damps the offset, and the second after it. -/
theorem Due.second (h : steered.Due windowSize)
    (hdamps : Damps steered.offset (steered.loop.next windowSize).offset) :
    ∃ labels, EveryStep Steered.step Ideal steered labels ∧
      (run Steered.step steered labels).Due windowSize ∧
      (run Steered.step steered labels).loop = steered.loop.next windowSize := by
  obtain ⟨msg, hideal⟩ := h.exists_ideal
  obtain ⟨hstays, _, hloop⟩ := h.step_reference hideal rfl
  have hoffset : (steered.step { request := .timeReference msg }).offset =
      (steered.loop.next windowSize).offset := congrArg Loop.offset hloop
  have hslewing := h.toSlewing.step hideal (hoffset ▸ hdamps)
  have hnow : (steered.node.advance 0).takeReference msg = steered.node.takeReference msg := by
    rw [h.advance]
  rw [hnow] at hstays
  have hmonotonic : (steered.step { request := .timeReference msg }).node.monotonic =
      steered.node.monotonic := hstays.monotonic
  have hnext : (steered.step { request := .timeReference msg }).node.nextTick =
      (steered.step { request := .timeReference msg }).node.monotonic + monitorPeriod := by
    rw [hmonotonic, ← h.nextTick]
    exact hstays.nextTick
  obtain ⟨hlater, hwaits⟩ := hslewing.ticks hnext 10
  refine ⟨{ request := .timeReference msg } :: Steered.ticks 10, ⟨hideal, ideal_ticks 10 _⟩, ?_⟩
  rw [run_cons]
  refine ⟨⟨hlater, (hwaits.cfg.trans hstays.cfg).trans h.cfg, hwaits.nextTick, ?_⟩,
    hwaits.loop.trans hloop⟩
  intro last hlast
  rw [hwaits.sampled] at hlast
  have hsampled : (steered.step { request := .timeReference msg }).node.monotonic = last :=
    Option.some.inj hlast
  rw [hwaits.monotonic, hsampled, monitorPeriod]
  norm_num

/-- What happens in the loop happens to some node. -/
theorem Due.exists_not_damped (h : steered.Due windowSize) {steps : Nat}
    (hover : steered.loop.overshoots windowSize steps = true) :
    ∃ labels, EveryStep Steered.step Ideal steered labels ∧
      ¬ EveryStep Steered.step Dampens steered labels := by
  induction steps generalizing steered with
  | zero => exact absurd hover Bool.false_ne_true
  | succ steps ih =>
      by_cases hdamps : Damps steered.offset (steered.loop.next windowSize).offset
      · obtain ⟨labels, hideal, hdue, hloop⟩ := h.second hdamps
        have hlater : (steered.loop.next windowSize).overshoots windowSize steps = true := by
          have hdamps' : Damps steered.loop.offset (steered.loop.next windowSize).offset := hdamps
          simpa [Loop.overshoots, hdamps'] using hover
        obtain ⟨rest, hrest, hnot⟩ := ih hdue (hloop ▸ hlater)
        refine ⟨labels ++ rest, (everyStep_append _ _ _ _).mpr ⟨hideal, hrest⟩, ?_⟩
        exact fun hall => hnot ((everyStep_append _ _ _ _).mp hall).2
      · obtain ⟨msg, hideal⟩ := h.exists_ideal
        obtain ⟨_, _, hloop⟩ := h.step_reference hideal rfl
        refine ⟨[{ request := .timeReference msg }], ⟨hideal, trivial⟩, fun hall => hdamps ?_⟩
        have hoffset : (steered.step { request := .timeReference msg }).offset =
            (steered.loop.next windowSize).offset := congrArg Loop.offset hloop
        exact hoffset ▸ hall.1

/-- Half a second off, just after the clock has been set. -/
def halfSecond (windowSize : Int) : Steered where
  node := { cfg := { windowSize }, state := .tracking, synced := true, lastGpsTime := some 0
            bootstrapTime := some 0, lastPrintTime := 0, monotonic := 0, shift := 0
            nextTick := monitorPeriod }
  offset := 500000000

theorem emptied_halfSecond (windowSize : Int) : (halfSecond windowSize).Emptied windowSize where
  size := rfl
  tracking := rfl
  offsetWindow := rfl
  sampled := rfl
  near := by norm_num [halfSecond, nsToMs]

theorem due_halfSecond (windowSize : Int) : (halfSecond windowSize).Due windowSize where
  size := rfl
  state := Or.inl rfl
  near := by
    intro sample hsample
    rw [List.mem_singleton.mp hsample]
    exact (emptied_halfSecond windowSize).near
  cfg := rfl
  nextTick := by simp [halfSecond]
  sampled := fun last hlast => nomatch hlast

theorem overshoots_halfSecond {windowSize : Int} (hlong : 13 < windowSize)
    (hmost : windowSize ≤ 30) : (halfSecond windowSize).loop.overshoots windowSize 87 = true := by
  have hall : ∀ longer : Fin 17,
      Loop.overshoots (14 + longer.val) 87 { offset := 500000000 } = true := by
    decide +kernel
  have hsize : windowSize = 14 + (windowSize - 14).toNat := by omega
  rw [hsize]
  exact hall ⟨(windowSize - 14).toNat, by omega⟩

/-- Of the windows of up to thirty samples, those of at most thirteen damp every offset. -/
theorem run_dampens_iff {windowSize : Int} (hleast : 1 ≤ windowSize) (hmost : windowSize ≤ 30) :
    (∀ (steered : Steered) (labels : List Label), steered.Emptied windowSize →
      EveryStep Steered.step Ideal steered labels →
      EveryStep Steered.step Dampens steered labels) ↔ windowSize ≤ 13 := by
  constructor
  · intro hall
    by_contra hlong
    obtain ⟨labels, hideal, hnot⟩ := (due_halfSecond windowSize).exists_not_damped
      (overshoots_halfSecond (not_le.mp hlong) hmost)
    exact hnot (hall _ labels (emptied_halfSecond windowSize) hideal)
  · intro hshort steered labels hemptied hideal
    exact everyStep_damps hleast hshort hemptied.slewing (hemptied.settles hleast) hideal

theorem run_dampens_thirteen :
    (∀ (steered : Steered) (labels : List Label), steered.Emptied 13 →
      EveryStep Steered.step Ideal steered labels →
      EveryStep Steered.step Dampens steered labels) ∧
    ¬ ∀ (steered : Steered) (labels : List Label), steered.Emptied 14 →
      EveryStep Steered.step Ideal steered labels →
      EveryStep Steered.step Dampens steered labels :=
  ⟨(run_dampens_iff (by norm_num) (by norm_num)).mpr (by norm_num),
    (run_dampens_iff (by norm_num) (by norm_num)).not.mpr (by norm_num)⟩

/-- With a window of thirty samples, half a second changes its sign within half a minute. -/
theorem not_dampens_halfSecond : (halfSecond 30).Emptied 30 ∧
    ∃ labels, EveryStep Steered.step Ideal (halfSecond 30) labels ∧
      ¬ EveryStep Steered.step Dampens (halfSecond 30) labels :=
  ⟨emptied_halfSecond 30, (due_halfSecond 30).exists_not_damped
    (overshoots_halfSecond (by norm_num) (by norm_num))⟩

end Steered

end AcflyRos.TimeSync

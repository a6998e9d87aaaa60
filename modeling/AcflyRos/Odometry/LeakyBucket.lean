import AcflyRos.Foundation.Buckets
import AcflyRos.Odometry.ClockSteps

/-! # The counter of degraded frames

`cov_degrade_cnt_` goes up with a degraded frame and down with a normal one, but not below zero.
It is compared with what the checked frames since the last reset amount to: by how many the
degraded ones outnumber the normal ones, from that frame on from which this is most.
-/

namespace AcflyRos.Odometry

open AcflyRos.Transition AcflyRos.Buckets TimeSync

universe u v

variable {μ : Type u} {α : Type v}

/-! ## One check -/

/-- What a frame is worth. -/
def frameWeight (degraded : Bool) : Int := if degraded then 1 else -1

/-- By how many the degraded frames outnumber the normal ones. -/
def excess (frames : List Bool) : Int := frames.count true - frames.count false

theorem sum_frameWeight (frames : List Bool) : (frames.map frameWeight).sum = excess frames := by
  induction frames with
  | nil => rfl
  | cons degraded rest ih =>
      rw [List.map_cons, List.sum_cons, ih]
      cases degraded <;> simp [frameWeight, excess] <;> omega

/-- The largest excess of the frames from some point on. -/
def Peak (frames : List Bool) (peak : Int) : Prop :=
  IsGreatest {total | ∃ recent, recent <:+ frames ∧ excess recent = total} peak

theorem peak_iff {frames : List Bool} {peak : Int} :
    Peak frames peak ↔ IsGreatest (balances frameWeight frames) peak := by
  unfold Peak balances
  simp only [sum_frameWeight]

namespace OdomGravityAlignNode

variable {node : OdomGravityAlignNode μ α} {opens : Bool} {odom : Frame μ}

/-- The counter is the weight of the frame further, unless that is below zero. -/
theorem countFrame_eq (hcnt : 0 ≤ node.covDegradeCnt) :
    node.countFrame odom =
      max 0 (node.covDegradeCnt + frameWeight (decide (node.Degraded odom))) := by
  unfold countFrame frameWeight
  by_cases hdegraded : node.Degraded odom
  · simp only [hdegraded, if_true, decide_true]
    omega
  · simp only [hdegraded, if_false, decide_false, Bool.false_eq_true]
    split <;> omega

theorem peak_countFrame {frames : List Bool} (h : Peak frames node.covDegradeCnt) :
    Peak (frames ++ [decide (node.Degraded odom)]) (node.countFrame odom) := by
  rw [peak_iff] at h ⊢
  rw [countFrame_eq (Buckets.nonneg h)]
  exact isGreatest_concat h _

/-- What a check does to the counter, the command file and the cooldown. -/
structure Checked (after : OdomGravityAlignNode μ α) (cnt lastResetTime : Int)
    (moments : List Moment) : Prop where
  covDegradeCnt : after.covDegradeCnt = cnt
  lastResetTime : after.lastResetTime = lastResetTime
  moments : resetMoments after.log = moments

theorem checkCovariance_checked (henabled : node.cfg.covCheckEnabled = true) :
    (node.Resets opens odom → Checked (node.checkCovariance opens odom) 0 node.now.system
      (node.now :: resetMoments node.log)) ∧
    (¬ node.Resets opens odom → Checked (node.checkCovariance opens odom)
      (node.countFrame odom) node.lastResetTime (resetMoments node.log)) := by
  constructor
  · intro hresets
    obtain ⟨diag, hchecked⟩ := node.checkCovariance_of_resets opens odom hresets
    rw [hchecked]
    exact ⟨rfl, rfl, rfl⟩
  · intro hresets
    unfold checkCovariance
    rw [if_pos henabled]
    dsimp only
    split
    next hasks =>
      rw [if_neg fun hopens => hresets ⟨henabled, hasks, hopens⟩]
      exact ⟨rfl, rfl, rfl⟩
    next => exact ⟨rfl, rfl, rfl⟩

/-- The rest of the tick does not touch them. -/
theorem timerCb_checked (align : μ → Option α → μ) (hodom : node.latestOdom = some odom)
    (hnew : node.IsNew odom) {cnt lastResetTime : Int} {moments : List Moment}
    (hchecked : Checked (node.checkCovariance opens odom) cnt lastResetTime moments) :
    Checked (node.timerCb align opens) cnt lastResetTime moments := by
  unfold timerCb
  rw [hodom]
  dsimp only
  rw [if_neg (not_le.mpr hnew)]
  split
  next => exact hchecked
  next => exact ⟨hchecked.covDegradeCnt, hchecked.lastResetTime, hchecked.moments⟩

theorem timerCb_cfg (align : μ → Option α → μ) : (node.timerCb align opens).cfg = node.cfg := by
  have hout := node.timerCb_outcome opens align
  generalize node.timerCb align opens = after at hout ⊢
  cases hout with
  | idle | resets | withheld | sends => rfl

end OdomGravityAlignNode

/-! ## Whole runs -/

/-- The node, and the checked frames since the command was written last, the oldest first: which
of them were degraded. -/
structure Tallied (μ : Type u) (α : Type v) where
  node : OdomGravityAlignNode μ α
  frames : List Bool := []
  deriving DecidableEq, Repr

namespace Tallied

section Steps

variable (align : μ → Option α → μ)

/-- The frame that a tick takes to the check, if it takes any. -/
def checks (tallied : Tallied μ α) : Option (Frame μ) :=
  tallied.node.latestOdom.filter fun odom => tallied.node.IsNew odom

/-- The frames up to the one that is checked. -/
def upTo (tallied : Tallied μ α) (odom : Frame μ) : List Bool :=
  tallied.frames ++ [decide (tallied.node.Degraded odom)]

/-- The tick writes the command. -/
def Writes (opens : Bool) (tallied : Tallied μ α) : Prop :=
  (resetMoments tallied.node.log).length <
    (resetMoments (tallied.node.timerCb align opens).log).length

instance (opens : Bool) (tallied : Tallied μ α) : Decidable (tallied.Writes align opens) :=
  inferInstanceAs (Decidable (_ < _))

def step (tallied : Tallied μ α) (label : Label μ α) : Tallied μ α :=
  { node := Odometry.step align tallied.node label
    frames := match label with
      | .timerCb opens =>
          match tallied.checks with
          | none => tallied.frames
          | some odom => if tallied.Writes align opens then [] else tallied.upTo odom
      | _ => tallied.frames }

/-- The counter is the largest excess of the checked frames since the last reset. The command is
written exactly when this exceeds the bound, the cooldown since the last reset is over, and the
file opens; when it is not written, the counter and the cooldown stay. -/
def Leaks (tallied : Tallied μ α) : Label μ α → Prop
  | .timerCb opens => ∀ odom ∈ tallied.checks, ∃ peak, Peak (tallied.upTo odom) peak ∧
      (tallied.Writes align opens ↔ tallied.node.cfg.covDegradeBound < peak ∧
        tallied.node.cfg.resetCooldownSec < seconds (tallied.node.now.system -
          (tallied.node.lastReset.map Moment.system).getD 0) ∧ opens = true) ∧
      Peak (tallied.step align (.timerCb opens)).frames
        (tallied.node.timerCb align opens).covDegradeCnt ∧
      (¬ tallied.Writes align opens →
        (tallied.node.timerCb align opens).covDegradeCnt = peak ∧
          (tallied.node.timerCb align opens).lastReset = tallied.node.lastReset)
  | _ => True

end Steps

/-- The counter is right, and the node knows when it has reset the sensor. -/
structure Sound (tallied : Tallied μ α) : Prop where
  enabled : tallied.node.cfg.covCheckEnabled = true
  tracked : Tracked tallied.node
  peak : Peak tallied.frames tallied.node.covDegradeCnt

section Tick

variable {align : μ → Option α → μ} {opens : Bool} {tallied : Tallied μ α} {odom : Frame μ}

theorem mem_checks : odom ∈ tallied.checks ↔
    tallied.node.latestOdom = some odom ∧ tallied.node.IsNew odom := by
  simp [checks, Option.filter_eq_some_iff]

theorem timerCb_of_unchecked (hnone : tallied.checks = none) :
    tallied.node.timerCb align opens = tallied.node := by
  unfold OdomGravityAlignNode.timerCb
  cases hodom : tallied.node.latestOdom with
  | none => rfl
  | some odom =>
      dsimp only
      rw [if_pos]
      by_contra hnew
      have hchecks : odom ∈ tallied.checks := mem_checks.mpr ⟨hodom, not_le.mp hnew⟩
      rw [hnone] at hchecks
      cases hchecks

/-- The tick that writes the command. -/
theorem Sound.resets (align : μ → Option α → μ) (h : Sound tallied) (hodom : odom ∈ tallied.checks)
    (hresets : tallied.node.Resets opens odom) :
    tallied.Writes align opens ∧ (tallied.node.timerCb align opens).covDegradeCnt = 0 := by
  obtain ⟨hlatest, hnew⟩ := mem_checks.mp hodom
  have hchecked := tallied.node.timerCb_checked align hlatest hnew
    ((OdomGravityAlignNode.checkCovariance_checked h.enabled).1 hresets)
  refine ⟨?_, hchecked.covDegradeCnt⟩
  rw [Writes, hchecked.moments]
  exact Nat.lt_succ_self _

/-- Any other tick that checks a frame. -/
theorem Sound.counts (align : μ → Option α → μ) (h : Sound tallied) (hodom : odom ∈ tallied.checks)
    (hresets : ¬ tallied.node.Resets opens odom) :
    ¬ tallied.Writes align opens ∧
      (tallied.node.timerCb align opens).covDegradeCnt = tallied.node.countFrame odom ∧
      (tallied.node.timerCb align opens).lastReset = tallied.node.lastReset := by
  obtain ⟨hlatest, hnew⟩ := mem_checks.mp hodom
  have hchecked := tallied.node.timerCb_checked align hlatest hnew
    ((OdomGravityAlignNode.checkCovariance_checked h.enabled).2 hresets)
  refine ⟨?_, hchecked.covDegradeCnt, ?_⟩
  · rw [Writes, hchecked.moments]
    exact Nat.lt_irrefl _
  · rw [OdomGravityAlignNode.lastReset, hchecked.moments, OdomGravityAlignNode.lastReset]

theorem Sound.writes_iff (h : Sound tallied) (hodom : odom ∈ tallied.checks) :
    tallied.Writes align opens ↔ tallied.node.Resets opens odom := by
  by_cases hresets : tallied.node.Resets opens odom
  · exact iff_of_true (h.resets align hodom hresets).1 hresets
  · exact iff_of_false (h.counts align hodom hresets).1 hresets

/-- What holds after a tick that checks a frame. -/
theorem Sound.peak_tick (h : Sound tallied) (hodom : odom ∈ tallied.checks) :
    Peak (tallied.step align (.timerCb opens)).frames
      (tallied.node.timerCb align opens).covDegradeCnt := by
  have hframes : (tallied.step align (.timerCb opens)).frames =
      if tallied.Writes align opens then [] else tallied.upTo odom := by
    simp only [step, Option.mem_def.mp hodom]
  rw [hframes]
  by_cases hresets : tallied.node.Resets opens odom
  · obtain ⟨hwrites, hcnt⟩ := h.resets align hodom hresets
    rw [if_pos hwrites, hcnt, peak_iff]
    exact isGreatest_nil
  · obtain ⟨hwrites, hcnt, _⟩ := h.counts align hodom hresets
    rw [if_neg hwrites, hcnt]
    exact OdomGravityAlignNode.peak_countFrame h.peak

theorem Sound.leaks (h : Sound tallied) (label : Label μ α) : tallied.Leaks align label := by
  cases label with
  | timerCb opens =>
      intro odom hodom
      refine ⟨tallied.node.countFrame odom, OdomGravityAlignNode.peak_countFrame h.peak, ?_,
        h.peak_tick hodom, fun hwrites => ?_⟩
      · rw [h.writes_iff hodom, ← h.tracked.reset]
        unfold OdomGravityAlignNode.Resets OdomGravityAlignNode.AsksReset
        rw [and_assoc]
        exact and_iff_right h.enabled
      · exact (h.counts align hodom fun hresets => hwrites (h.resets align hodom hresets).1).2
  | _ => trivial

theorem Sound.step (h : Sound tallied) (label : Label μ α) : Sound (tallied.step align label) := by
  have htracked := h.tracked.step align label
  cases label with
  | timerCb opens =>
      cases hchecks : tallied.checks with
      | none =>
          have hidle : tallied.step align (.timerCb opens) = tallied := by
            simp only [Tallied.step, Odometry.step, timerCb_of_unchecked hchecks, hchecks]
          rwa [hidle]
      | some odom =>
          have hodom : odom ∈ tallied.checks := hchecks
          refine ⟨?_, htracked, h.peak_tick hodom⟩
          simp only [Tallied.step, Odometry.step, OdomGravityAlignNode.timerCb_cfg, h.enabled]
  | odomCb index =>
      refine ⟨?_, htracked, ?_⟩
      · simp only [Tallied.step, Odometry.step]
        split
        next => exact h.enabled
        next => exact h.enabled
      · simp only [Tallied.step, Odometry.step]
        split
        next => exact h.peak
        next => exact h.peak
  | _ => exact ⟨h.enabled, htracked, h.peak⟩

end Tick

theorem sound_initial (cfg : Config) (henabled : cfg.covCheckEnabled = true) (now : Moment) :
    Sound (⟨initial cfg now, []⟩ : Tallied μ α) :=
  ⟨henabled, tracked_initial cfg now, peak_iff.mpr isGreatest_nil⟩

end Tallied

/-- The counter of degraded frames is a leaky bucket, and the reset is written when it spills. -/
theorem run_leaks (align : μ → Option α → μ) (cfg : Config)
    (henabled : cfg.covCheckEnabled = true) (now : Moment) (labels : List (Label μ α)) :
    EveryStep (Tallied.step align) (Tallied.Leaks align) ⟨initial cfg now, []⟩ labels :=
  everyStep_of_invariant (Tallied.step align) Tallied.Sound (fun _ label h => h.step label)
    (fun _ label h => h.leaks label) labels (Tallied.sound_initial cfg henabled now)

/-- Two degraded frames and a normal one, then a degraded one for which the file does not open, and
one for which it does. -/
def spilling : List (Label Unit Unit) :=
  let clear : Variances := ⟨0, 0, 0, 0, 0, 0⟩
  let lost : Variances := ⟨1, 0, 0, 0, 0, 0⟩
  [lost, lost, clear].flatMap (fun variances =>
    [.elapse 1000000000, .capture variances (), .odomCb 0, .timerCb true]) ++
  [.elapse 1000000000, .capture lost (), .odomCb 0, .timerCb false,
    .elapse 1000000000, .capture lost (), .odomCb 0, .timerCb true]

theorem leaks_spilling : EveryStep (Tallied.step fun _ _ => ())
    (Tallied.Leaks fun _ _ => ()) ⟨initial { covDegradeBound := 1 } ⟨0, 0⟩, []⟩ spilling :=
  run_leaks (fun _ _ => ()) { covDegradeBound := 1 } rfl ⟨0, 0⟩ spilling

end AcflyRos.Odometry

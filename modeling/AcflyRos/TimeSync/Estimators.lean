import AcflyRos.Foundation.Ranks
import AcflyRos.Foundation.Transition
import AcflyRos.TimeSync.Jumps
import Mathlib.Data.Sign.Defs

/-! # The two estimators of the offset

The window is smoothed by a mean that leaves out the extreme tenths of ten samples and more,
and the clock is set by the upper median. Both depend on the samples and not on their order,
and both stay among the good samples when few are outliers. But one may go where the other
does not.
-/

namespace AcflyRos.TimeSync

open AcflyRos.Ranks AcflyRos.Transition

theorem sorted_perm (window : List Int) : (sorted window).Perm window :=
  List.perm_insertionSort _ window

theorem sorted_pairwise (window : List Int) : (sorted window).Pairwise (· ≤ ·) :=
  List.pairwise_insertionSort _ window

@[simp] theorem length_sorted (window : List Int) : (sorted window).length = window.length :=
  (sorted_perm window).length_eq

theorem sorted_congr {window other : List Int} (hperm : window.Perm other) :
    sorted window = sorted other := by
  apply List.Perm.eq_of_pairwise' (sorted_pairwise window) (sorted_pairwise other)
  exact (sorted_perm window).trans (hperm.trans (sorted_perm other).symm)

/-! ## The samples that are averaged -/

/-- What `get_smoothed_offset_ms` adds up, in the order in which it does. -/
def averaged (window : List Int) : List Int :=
  if window.length < 10 then window
  else
    ((sorted window).drop (window.length / 10)).take (window.length - 2 * (window.length / 10))

theorem averaged_of_few {window : List Int} (hfew : window.length < 10) :
    averaged window = window := if_pos hfew

theorem averaged_of_many {window : List Int} (hmany : 10 ≤ window.length) :
    averaged window = ((sorted window).drop (window.length / 10)).take
      (window.length - 2 * (window.length / 10)) := if_neg (Nat.not_lt.mpr hmany)

theorem length_averaged_of_many {window : List Int} (hmany : 10 ≤ window.length) :
    (averaged window).length = window.length - 2 * (window.length / 10) := by
  rw [averaged_of_many hmany, List.length_take, List.length_drop, length_sorted]
  omega

/-- The mean of the samples, converted to milliseconds. -/
theorem smoothedOffsetMs_eq (window : List Int) : smoothedOffsetMs window =
    ((averaged window).sum : ℚ) / (averaged window).length / 1000000 := by
  unfold smoothedOffsetMs
  by_cases hempty : window = []
  · simp [hempty, averaged]
  · rw [if_neg hempty]
    by_cases hfew : window.length < 10
    · rw [if_pos hfew, averaged_of_few hfew]
    · rw [if_neg hfew, length_averaged_of_many (not_lt.mp hfew), averaged_of_many (not_lt.mp hfew)]

/-- Those of many that are averaged have a tenth of the others on either side. -/
theorem mem_averaged_of_many {window : List Int} (hmany : 10 ≤ window.length) {sample : Int}
    (hsample : sample ∈ averaged window) :
    ∃ i, ∃ hi : i < (sorted window).length, (sorted window)[i] = sample ∧
      window.length / 10 ≤ i ∧ i + window.length / 10 < window.length := by
  rw [averaged_of_many hmany] at hsample
  obtain ⟨i, hi, hget⟩ := List.mem_iff_getElem.mp hsample
  rw [List.getElem_take, List.getElem_drop] at hget
  rw [List.length_take, List.length_drop, length_sorted] at hi
  exact ⟨window.length / 10 + i, by rw [length_sorted]; omega, hget, by omega, by omega⟩

theorem middle_lt {window : List Int} (hwindow : window ≠ []) :
    window.length / 2 < (sorted window).length := by
  rw [length_sorted]
  exact Nat.div_lt_self (List.length_pos_iff.mpr hwindow) Nat.one_lt_two

theorem medianOffsetNs_eq {window : List Int}
    (hmiddle : window.length / 2 < (sorted window).length) :
    medianOffsetNs window = (sorted window)[window.length / 2] := by
  unfold medianOffsetNs
  rw [List.getElem?_eq_getElem hmiddle, Option.getD_some]

/-! ## Outliers -/

/-- `/ 1e6` -/
def nsToMs (ns : Int) : ℚ := ns / 1000000

theorem nsToMs_mono {low high : Int} (hle : low ≤ high) : nsToMs low ≤ nsToMs high := by
  have hcast : (low : ℚ) ≤ high := Int.cast_le.mpr hle
  unfold nsToMs
  linarith

theorem between_averaged {window good outliers : List Int}
    (hperm : window.Perm (good ++ outliers)) (hmany : 10 ≤ window.length)
    (hfew : outliers.length ≤ window.length / 10) :
    ∀ sample ∈ averaged window, Between good sample := by
  intro sample hsample
  obtain ⟨i, hi, rfl, hbelow, habove⟩ := mem_averaged_of_many hmany hsample
  apply between_getElem (sorted_pairwise window) ((sorted_perm window).trans hperm)
  · omega
  · rw [length_sorted]
    omega

theorem smoothedOffsetMs_eq_mean (window : List Int) : smoothedOffsetMs window =
    ((averaged window).map nsToMs).sum / ((averaged window).map nsToMs).length := by
  have hsum : ((averaged window).map nsToMs).sum = ((averaged window).sum : ℚ) / 1000000 := by
    induction averaged window with
    | nil => simp
    | cons sample rest ih =>
        rw [List.map_cons, List.sum_cons, List.sum_cons, ih, nsToMs, ← add_div, Int.cast_add]
  rw [smoothedOffsetMs_eq, hsum, List.length_map, div_right_comm]

theorem between_smoothedOffsetMs_of_averaged {window samples : List Int}
    (hsome : averaged window ≠ []) (hbetween : ∀ sample ∈ averaged window, Between samples sample) :
    Between (samples.map nsToMs) (smoothedOffsetMs window) := by
  rw [smoothedOffsetMs_eq_mean]
  apply between_mean (mt List.map_eq_nil_iff.mp hsome)
  intro sample hsample
  obtain ⟨ns, hns, rfl⟩ := List.mem_map.mp hsample
  exact (hbetween ns hns).map fun _ _ => nsToMs_mono

theorem between_smoothedOffsetMs {window good outliers : List Int}
    (hperm : window.Perm (good ++ outliers)) (hmany : 10 ≤ window.length)
    (hfew : outliers.length ≤ window.length / 10) :
    Between (good.map nsToMs) (smoothedOffsetMs window) := by
  apply between_smoothedOffsetMs_of_averaged _ (between_averaged hperm hmany hfew)
  rw [← List.length_pos_iff, length_averaged_of_many hmany]
  omega

theorem between_medianOffsetNs {window good outliers : List Int}
    (hperm : window.Perm (good ++ outliers)) (hfew : 2 * outliers.length < window.length) :
    Between good (medianOffsetNs window) := by
  have hwindow : window ≠ [] := List.length_pos_iff.mp (by omega)
  rw [medianOffsetNs_eq (middle_lt hwindow)]
  apply between_getElem (sorted_pairwise window) ((sorted_perm window).trans hperm)
  · omega
  · rw [length_sorted]
    omega

theorem smoothedOffsetMs_congr {window other : List Int} (hperm : window.Perm other) :
    smoothedOffsetMs window = smoothedOffsetMs other := by
  have hsum : ((averaged window).sum : ℚ) = (averaged other).sum := by
    unfold averaged
    rw [hperm.length_eq, sorted_congr hperm]
    split
    · exact congrArg Int.cast hperm.sum_eq
    · rfl
  have hlength : (averaged window).length = (averaged other).length := by
    unfold averaged
    rw [hperm.length_eq, sorted_congr hperm]
    split
    · exact hperm.length_eq
    · rfl
  rw [smoothedOffsetMs_eq, smoothedOffsetMs_eq, hsum, hlength]

theorem medianOffsetNs_congr {window other : List Int} (hperm : window.Perm other) :
    medianOffsetNs window = medianOffsetNs other := by
  unfold medianOffsetNs
  rw [sorted_congr hperm, hperm.length_eq]

/-- Outliers up to a tenth do not carry the mean away from the other samples, outliers short of
a half not the median, and the order of the samples does not matter. -/
theorem estimators_robust (window : List Int) :
    (∀ good outliers, window.Perm (good ++ outliers) → 10 ≤ window.length →
      outliers.length ≤ window.length / 10 →
        Between (good.map nsToMs) (smoothedOffsetMs window)) ∧
    (∀ good outliers, window.Perm (good ++ outliers) → 2 * outliers.length < window.length →
      Between good (medianOffsetNs window)) ∧
    ∀ other, window.Perm other → smoothedOffsetMs window = smoothedOffsetMs other ∧
      medianOffsetNs window = medianOffsetNs other :=
  ⟨fun _ _ => between_smoothedOffsetMs, fun _ _ => between_medianOffsetNs,
    fun _ hperm => ⟨smoothedOffsetMs_congr hperm, medianOffsetNs_congr hperm⟩⟩

/-- Ten samples of which one is an hour off. -/
theorem estimators_robust_hour :
    Between ([0, 1, 2, 3, 4, 5, 6, 7, 8].map nsToMs)
        (smoothedOffsetMs [8, 7, 6, 3600000000000, 5, 4, 3, 2, 1, 0]) ∧
      Between [0, 1, 2, 3, 4, 5, 6, 7, 8]
        (medianOffsetNs [8, 7, 6, 3600000000000, 5, 4, 3, 2, 1, 0]) := by
  have hrobust := estimators_robust [8, 7, 6, 3600000000000, 5, 4, 3, 2, 1, 0]
  exact ⟨hrobust.1 [0, 1, 2, 3, 4, 5, 6, 7, 8] [3600000000000] (by decide) (by decide) (by decide),
    hrobust.2.1 [0, 1, 2, 3, 4, 5, 6, 7, 8] [3600000000000] (by decide) (by decide)⟩

/-! ## The step of the clock -/

namespace TimeSyncNode

/-- By how much `do_bootstrap` tries to set the clock forward. -/
def bootstrapStep (settimeFails : Bool) (node : TimeSyncNode) : Option Int :=
  ({ node with log := [] }.doBootstrap settimeFails).2.log.findSome? fun (entry : Entry) =>
    match entry.event with
    | .settime target _ => some (target - node.system)
    | _ => none

/-- The step goes the way of the smoothed offset, and beyond the threshold. -/
def StepFits (settimeFails : Bool) (node : TimeSyncNode) : Prop :=
  ∃ step ∈ node.bootstrapStep settimeFails,
    SignType.sign (nsToMs step) = SignType.sign (smoothedOffsetMs node.offsetWindow) ∧
      node.cfg.bootstrapThresholdMs < |nsToMs step|

instance (settimeFails : Bool) (node : TimeSyncNode) : Decidable (node.StepFits settimeFails) :=
  inferInstanceAs (Decidable (∃ step ∈ node.bootstrapStep settimeFails, _))

/-- Half of the samples lie beyond the threshold on the side of the mean, or just more than half
where the mean is negative. -/
def Backed (node : TimeSyncNode) : Prop :=
  (0 < smoothedOffsetMs node.offsetWindow ∧
    node.offsetWindow.length - node.offsetWindow.length / 2 ≤ node.offsetWindow.countP fun sample =>
      0 < sample ∧ node.cfg.bootstrapThresholdMs < nsToMs sample) ∨
  (smoothedOffsetMs node.offsetWindow < 0 ∧
    node.offsetWindow.length / 2 < node.offsetWindow.countP fun sample =>
      sample < 0 ∧ node.cfg.bootstrapThresholdMs < -nsToMs sample)

theorem bootstrapStep_eq (settimeFails : Bool) (node : TimeSyncNode) :
    node.bootstrapStep settimeFails =
      if medianOffsetNs node.offsetWindow = 0 then none
      else some (medianOffsetNs node.offsetWindow) := by
  unfold bootstrapStep doBootstrap
  dsimp only
  split
  next => rfl
  next =>
    cases settimeFails with
    | true => simp [record, system]
    | false => simp [record, system]

theorem nsToMs_pos {ns : Int} : 0 < nsToMs ns ↔ 0 < ns := by
  unfold nsToMs
  rw [div_pos_iff_of_pos_right (by norm_num), Int.cast_pos]

theorem nsToMs_neg {ns : Int} : nsToMs ns < 0 ↔ ns < 0 := by
  unfold nsToMs
  rw [div_lt_iff₀ (by norm_num), zero_mul, Int.cast_lt_zero]

theorem median_iff_of_upward {window : List Int} (hwindow : window ≠ []) {p : Int → Prop}
    [DecidablePred p] (hp : ∀ low high, low ≤ high → p low → p high) :
    p (medianOffsetNs window) ↔ window.length - window.length / 2 ≤ window.countP p := by
  have hmiddle := middle_lt hwindow
  rw [medianOffsetNs_eq hmiddle, getElem_iff_le_countP (sorted_pairwise window) hp hmiddle,
    (sorted_perm window).countP_eq, length_sorted]

theorem median_iff_of_downward {window : List Int} (hwindow : window ≠ []) {p : Int → Prop}
    [DecidablePred p] (hp : ∀ low high, low ≤ high → p high → p low) :
    p (medianOffsetNs window) ↔ window.length / 2 < window.countP p := by
  have hmiddle := middle_lt hwindow
  rw [medianOffsetNs_eq hmiddle, getElem_iff_lt_countP (sorted_pairwise window) hp hmiddle,
    (sorted_perm window).countP_eq]

/-- The sign and the size of the step are those of the median. -/
theorem stepFits_iff_median (settimeFails : Bool) (node : TimeSyncNode) :
    node.StepFits settimeFails ↔
      (0 < smoothedOffsetMs node.offsetWindow ∧ 0 < medianOffsetNs node.offsetWindow ∧
        node.cfg.bootstrapThresholdMs < nsToMs (medianOffsetNs node.offsetWindow)) ∨
      (smoothedOffsetMs node.offsetWindow < 0 ∧ medianOffsetNs node.offsetWindow < 0 ∧
        node.cfg.bootstrapThresholdMs < -nsToMs (medianOffsetNs node.offsetWindow)) := by
  unfold StepFits
  rw [bootstrapStep_eq]
  rcases lt_trichotomy (medianOffsetNs node.offsetWindow) 0 with hneg | hzero | hpos
  · have hms := nsToMs_neg.mpr hneg
    simp [hneg.ne, hneg, hneg.not_gt, sign_neg hms, abs_of_neg hms, eq_comm (a := (-1 : SignType)),
      sign_eq_neg_one_iff]
  · simp [hzero]
  · have hms := nsToMs_pos.mpr hpos
    simp [hpos.ne', hpos, hpos.not_gt, sign_pos hms, abs_of_pos hms, eq_comm (a := (1 : SignType)),
      sign_eq_one_iff]

theorem stepFits_iff (settimeFails : Bool) (node : TimeSyncNode) :
    node.StepFits settimeFails ↔ node.Backed := by
  rw [stepFits_iff_median]
  by_cases hwindow : node.offsetWindow = []
  · have hsmoothed : smoothedOffsetMs node.offsetWindow = 0 := if_pos hwindow
    simp [Backed, hsmoothed]
  · refine or_congr (and_congr_right fun _ => ?_) (and_congr_right fun _ => ?_)
    · apply median_iff_of_upward (p := fun sample =>
        0 < sample ∧ node.cfg.bootstrapThresholdMs < nsToMs sample) hwindow
      exact fun low high hle hlow => ⟨hlow.1.trans_le hle, hlow.2.trans_le (nsToMs_mono hle)⟩
    · apply median_iff_of_downward (p := fun sample =>
        sample < 0 ∧ node.cfg.bootstrapThresholdMs < -nsToMs sample) hwindow
      exact fun low high hle hhigh => ⟨hle.trans_lt hhigh.1,
        hhigh.2.trans_le (neg_le_neg (nsToMs_mono hle))⟩

end TimeSyncNode

/-- After the cooldown, two references find the clock 1 ms ahead. -/
def ahead : List Label :=
  let reference : Label :=
    ⟨.timeReference ⟨⟨1790000003, 1000000⟩, ⟨1790000003, 0⟩⟩, 0, false⟩
  ⟨.timeReference ⟨⟨1789999999, 0⟩, ⟨1790000000, 0⟩⟩, 0, false⟩ ::
    List.replicate 31 ⟨.monitor, 0, false⟩ ++ [reference, reference]

/-- A third one is two seconds off, and sets the clock back by 1 ms. -/
theorem not_stepFits_ahead :
    ¬ ∀ (cfg : Config) (monotonic system : Int) (labels : List Label) (msg : TimeReference)
        (settimeFails : Bool),
      let node := (run step (initial cfg monotonic system) labels).takeReference msg
      (run step (initial cfg monotonic system) labels).accepts msg →
        node.state = .tracking ∨ node.state = .hold → node.WantsJump →
          node.StepFits settimeFails := by
  intro hall
  have hfits := hall {} 0 1789999999000000000 ahead ⟨⟨1790000003, 0⟩, ⟨1790000005, 0⟩⟩ false
    (by decide +kernel) (by decide +kernel) (by decide +kernel)
  exact absurd hfits (by decide +kernel)

end AcflyRos.TimeSync

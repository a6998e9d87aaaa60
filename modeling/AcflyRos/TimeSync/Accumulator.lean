import AcflyRos.TimeSync.Estimators
import AcflyRos.TimeSync.InStep

/-! # The sum behind the smoothed offset

`get_smoothed_offset_ms` adds 64-bit offsets up in a 64-bit sum. A window holds what has come
in since the clock was last set, and while `clock_settime` fails it is never emptied.
-/

namespace AcflyRos.TimeSync

open AcflyRos.Transition

/-- The range of `int64_t`. -/
def FitsInt64 (value : Int) : Prop := -9223372036854775808 ≤ value ∧ value ≤ 9223372036854775807

instance (value : Int) : Decidable (FitsInt64 value) := inferInstanceAs (Decidable (_ ∧ _))

/-- All values of the sum while the samples of the window are added to it. -/
def SumFits (window : List Int) : Prop :=
  ∀ added ∈ (averaged window).inits, FitsInt64 added.sum

instance (window : List Int) : Decidable (SumFits window) :=
  inferInstanceAs (Decidable (∀ added ∈ (averaged window).inits, _))

/-- The window that a callback smooths. A tick of the monitor does so when it prints. -/
def smoothedWindow (node : TimeSyncNode) (label : Label) : List Int :=
  match label.request with
  | .timeReference msg =>
      if (node.advance label.wait).accepts msg then
        ((node.advance label.wait).takeReference msg).offsetWindow
      else []
  | .timesyncStatus _ => []
  | .monitor => node.offsetWindow

/-- No sum overflows. -/
def Sums (node : TimeSyncNode) (label : Label) : Prop := SumFits (smoothedWindow node label)

instance (node : TimeSyncNode) (label : Label) : Decidable (Sums node label) :=
  inferInstanceAs (Decidable (SumFits _))

/-- The largest offset that can be computed from a reference: the last second there is against
the first, and half of a round trip just below the limit. -/
def Config.largestOffset (cfg : Config) : Int :=
  4294967299294967295 + if 1 < cfg.rttMaxNs then (cfg.rttMaxNs - 1) / 2 else 0

/-! ## Bounds on sums -/

theorem abs_sum_le {samples : List Int} {bound : Int}
    (hsamples : ∀ sample ∈ samples, |sample| ≤ bound) : |samples.sum| ≤ samples.length * bound := by
  induction samples with
  | nil => simp
  | cons sample rest ih =>
      have hrest := ih fun other hother => hsamples other (List.mem_cons_of_mem sample hother)
      have hsample := hsamples sample List.mem_cons_self
      have htriangle := abs_add_le sample rest.sum
      rw [List.sum_cons, List.length_cons]
      push_cast
      linarith

theorem averaged_subset {window : List Int} {sample : Int} (hsample : sample ∈ averaged window) :
    sample ∈ window := by
  unfold averaged at hsample
  split at hsample
  next => exact hsample
  next =>
    have hkept := List.mem_of_mem_drop (List.mem_of_mem_take hsample)
    exact (sorted_perm window).mem_iff.mp hkept

theorem length_averaged_le (window : List Int) : (averaged window).length ≤ window.length := by
  by_cases hfew : window.length < 10
  · rw [averaged_of_few hfew]
  · rw [length_averaged_of_many (not_lt.mp hfew)]
    omega

/-- So many samples that all together fit do so one after the other. -/
theorem sumFits_of_bound {window : List Int} {bound : Int} (hbound : 0 ≤ bound)
    (hsamples : ∀ sample ∈ window, |sample| ≤ bound)
    (hfits : window.length * bound ≤ 9223372036854775807) : SumFits window := by
  intro added hadded
  have hinits := (List.mem_inits _ _).mp hadded
  have hsum := abs_sum_le fun sample hsample =>
    hsamples sample (averaged_subset (hinits.subset hsample))
  have hlength : (added.length : Int) ≤ window.length :=
    Int.ofNat_le.mpr (hinits.length_le.trans (length_averaged_le window))
  have hmany := mul_le_mul_of_nonneg_right hlength hbound
  have hrange := abs_le.mp (hsum.trans (hmany.trans hfits))
  exact ⟨by omega, hrange.2⟩

/-! ## Offsets -/

theorem largestOffset_nonneg (cfg : Config) : 0 ≤ cfg.largestOffset := by
  unfold Config.largestOffset
  split <;> omega

namespace TimeSyncNode

theorem abs_offsetOf_le (node : TimeSyncNode) (msg : TimeReference) :
    |node.offsetOf msg| ≤ node.cfg.largestOffset := by
  have hsec := msg.stamp.sec.le_toInt
  have hsec' := msg.stamp.sec.toInt_lt
  have href := msg.timeRef.sec.le_toInt
  have href' := msg.timeRef.sec.toInt_lt
  have hnano := msg.stamp.nanosec.toNat_lt
  have hnano' := msg.timeRef.nanosec.toNat_lt
  unfold offsetOf Config.largestOffset Stamp.toNs
  dsimp only
  rw [abs_le]
  by_cases hrtt : 0 < node.rttNs ∧ node.rttNs < node.cfg.rttMaxNs
  · have hlarge : 1 < node.cfg.rttMaxNs := by omega
    have hhalf : node.rttNs.tdiv 2 = node.rttNs / 2 := Int.tdiv_eq_ediv_of_nonneg hrtt.1.le
    rw [if_pos hrtt, if_pos hlarge, hhalf]
    omega
  · rw [if_neg hrtt]
    split <;> omega

end TimeSyncNode

/-- A window of at most so many offsets that references can have. -/
structure Bounded (cfg : Config) (window : List Int) : Prop where
  length : (window.length : Int) ≤ max 0 cfg.windowSize
  samples : ∀ sample ∈ window, |sample| ≤ cfg.largestOffset

namespace Bounded

variable {cfg : Config} {window : List Int} {node : TimeSyncNode}

theorem nil : Bounded cfg [] := ⟨by simp, by simp⟩

theorem push (h : Bounded cfg window) {offset : Int} (hoffset : |offset| ≤ cfg.largestOffset) :
    Bounded cfg (pushOffset cfg.windowSize window offset) := by
  have hlength := h.length
  have hsamples : ∀ sample ∈ window ++ [offset], |sample| ≤ cfg.largestOffset := by
    intro sample hsample
    rcases List.mem_append.mp hsample with hold | hnew
    · exact h.samples sample hold
    · rw [List.mem_singleton.mp hnew]
      exact hoffset
  unfold pushOffset
  dsimp only
  by_cases hfull : cfg.windowSize < (window ++ [offset]).length
  · rw [if_pos hfull]
    refine ⟨?_, fun sample hsample => hsamples sample (List.mem_of_mem_tail hsample)⟩
    rw [List.length_tail, List.length_append, List.length_singleton]
    omega
  · rw [if_neg hfull]
    exact ⟨by omega, hsamples⟩

theorem step (h : Bounded node.cfg node.offsetWindow) (label : Label) :
    Bounded (step node label).cfg (step node label).offsetWindow := by
  have hoffset : ∀ offset ∈ processed node label, |offset| ≤ node.cfg.largestOffset := by
    intro offset hoffset
    unfold processed at hoffset
    split at hoffset
    next msg _ =>
      split at hoffset
      · rw [List.mem_singleton.mp hoffset]
        exact (node.advance label.wait).abs_offsetOf_le msg
      · cases hoffset
    next => cases hoffset
  obtain ⟨hcfg, ⟨_, hwindow⟩ | ⟨_, hwindow⟩⟩ := step_window node label
  · rw [hcfg, hwindow]
    have hone := length_processed_le node label
    generalize processed node label = added at hone hoffset ⊢
    match added with
    | [] => exact h
    | [offset] => exact h.push (hoffset offset List.mem_cons_self)
    | _ :: _ :: _ => simp at hone
  · rw [hwindow]
    exact nil

theorem sumFits (h : Bounded cfg window)
    (hfits : cfg.windowSize * cfg.largestOffset ≤ 9223372036854775807) : SumFits window := by
  apply sumFits_of_bound (largestOffset_nonneg cfg) h.samples
  have hmany := mul_le_mul_of_nonneg_right h.length (largestOffset_nonneg cfg)
  rcases le_total 0 cfg.windowSize with hpositive | hnegative
  · rw [max_eq_right hpositive] at hmany
    exact hmany.trans hfits
  · rw [max_eq_left hnegative, zero_mul] at hmany
    omega

/-- Where a full window of the largest offsets fits, every sum does. -/
theorem sums (h : Bounded node.cfg node.offsetWindow)
    (hfits : node.cfg.windowSize * node.cfg.largestOffset ≤ 9223372036854775807) (label : Label) :
    Sums node label := by
  unfold Sums smoothedWindow
  split
  next msg _ =>
    split
    · exact (h.push ((node.advance label.wait).abs_offsetOf_le msg)).sumFits hfits
    · exact nil.sumFits hfits
  next => exact nil.sumFits hfits
  next => exact h.sumFits hfits

end Bounded

/-! ## A clock that cannot be set -/

/-- The last second that a reference can have, stamped with the first. -/
def farReference : TimeReference := ⟨⟨-2147483648, 0⟩, ⟨2147483647, 4294967295⟩⟩

/-- Round trips just short of the limit, in milliseconds. -/
def Config.longestRttMs (cfg : Config) : ℚ := (cfg.rttMaxNs - 1 : Int) / 1000000

/-- The round trip time arrives, and then one far reference after the other, none of which sets
the clock. -/
def hopeless (cfg : Config) (references : Nat) : List Label :=
  ⟨.timesyncStatus cfg.longestRttMs, 0, false⟩ ::
    List.replicate references ⟨.timeReference farReference, 0, true⟩

/-- The clock has not been set in spite of so many far references. -/
structure Stuck (node : TimeSyncNode) (references : Nat) : Prop where
  state : node.state = .init
  accepts : node.accepts farReference
  rttNs : node.rttNs = node.cfg.rttMaxNs - 1
  window : node.offsetWindow = List.replicate references node.cfg.largestOffset

theorem truncate_intCast (n : Int) : truncate n = n := by
  unfold truncate
  rw [Rat.num_intCast, Rat.den_intCast, Nat.cast_one, Int.tdiv_one]

theorem stuck_initial (cfg : Config) (monotonic system : Int)
    (hyear : minGpsYearToEpoch cfg.minGpsYear ≤ 2147483647) :
    Stuck (step (initial cfg monotonic system) ⟨.timesyncStatus cfg.longestRttMs, 0, false⟩) 0 where
  state := rfl
  accepts := hyear
  rttNs := by
    show truncate (cfg.longestRttMs * 1000000) = cfg.rttMaxNs - 1
    unfold Config.longestRttMs
    rw [div_mul_cancel₀ _ (by norm_num), truncate_intCast]
  window := rfl

namespace Stuck

variable {node : TimeSyncNode} {references : Nat}

theorem offsetOf (h : Stuck node references) :
    node.offsetOf farReference = node.cfg.largestOffset := by
  have hgps : farReference.timeRef.toNs - farReference.stamp.toNs = 4294967299294967295 := by
    decide
  unfold TimeSyncNode.offsetOf Config.largestOffset
  dsimp only
  rw [h.rttNs, hgps]
  by_cases hlarge : 1 < node.cfg.rttMaxNs
  · rw [if_pos (by omega), if_pos hlarge, Int.tdiv_eq_ediv_of_nonneg (by omega)]
  · rw [if_neg (by omega), if_neg hlarge, add_zero]

/-- There is room for another one. -/
theorem push (h : Stuck node references) (hroom : (references : Int) < node.cfg.windowSize) :
    (node.takeReference farReference).offsetWindow =
      List.replicate (references + 1) node.cfg.largestOffset := by
  rw [TimeSyncNode.takeReference_offsetWindow, h.offsetOf, h.window, List.replicate_succ']
  apply if_neg
  rw [List.length_append, List.length_replicate, List.length_singleton]
  omega

theorem advance (h : Stuck node references) (wait : Nat) : Stuck (node.advance wait) references :=
  ⟨h.state, h.accepts, h.rttNs, h.window⟩

/-- `clock_settime` fails. -/
theorem step (h : Stuck node references) (hroom : (references : Int) < node.cfg.windowSize) :
    Stuck (step node ⟨.timeReference farReference, 0, true⟩) (references + 1) := by
  have hwindow := (h.advance 0).push hroom
  have hstate : ((node.advance 0).takeReference farReference).state = .init := h.state
  show Stuck ((node.advance 0).timeRefCb true farReference) (references + 1)
  unfold TimeSyncNode.timeRefCb
  rw [if_neg (not_not_intro (h.advance 0).accepts)]
  simp only [hstate]
  unfold TimeSyncNode.handleInit TimeSyncNode.doBootstrap
  dsimp only
  by_cases hmedian :
      medianOffsetNs ((node.advance 0).takeReference farReference).offsetWindow = 0
  · rw [if_pos hmedian]
    exact ⟨h.state, h.accepts, h.rttNs, hwindow⟩
  · rw [if_neg hmedian]
    exact ⟨h.state, h.accepts, h.rttNs, hwindow⟩

/-- The sum over the window that one more reference fills. -/
theorem sum_of_sums (h : Stuck node references) (hroom : (references : Int) < node.cfg.windowSize)
    (hfew : references < 9) (hsums : Sums node ⟨.timeReference farReference, 0, true⟩) :
    (references + 1 : Nat) * node.cfg.largestOffset ≤ 9223372036854775807 := by
  have hwindow : smoothedWindow node ⟨.timeReference farReference, 0, true⟩ =
      List.replicate (references + 1) node.cfg.largestOffset :=
    (if_pos (h.advance 0).accepts).trans ((h.advance 0).push hroom)
  unfold Sums SumFits at hsums
  rw [hwindow, averaged_of_few (by rw [List.length_replicate]; omega)] at hsums
  have hall := hsums _ ((List.mem_inits _ _).mpr List.prefix_rfl)
  rw [List.sum_replicate, nsmul_eq_mul] at hall
  exact hall.2

/-- While there is room, every reference is one more to add up. -/
theorem sum_of_everyStep (h : Stuck node references) {more : Nat}
    (hroom : references + more < node.cfg.windowSize) (hfew : references + more < 9)
    (hsums : EveryStep TimeSync.step Sums node
      (List.replicate (more + 1) ⟨.timeReference farReference, 0, true⟩)) :
    (references + more + 1 : Nat) * node.cfg.largestOffset ≤ 9223372036854775807 := by
  induction more generalizing node references with
  | zero =>
      apply h.sum_of_sums _ hfew hsums.1
      omega
  | succ more ih =>
      have hnext := h.step (by omega)
      have hcfg := (step_window node ⟨.timeReference farReference, 0, true⟩).1
      have hlater := ih hnext (by rw [hcfg]; push_cast at *; omega) (by omega) hsums.2
      rw [hcfg] at hlater
      have hsame : references + (more + 1) + 1 = references + 1 + more + 1 := by omega
      rw [hsame]
      exact hlater

end Stuck

/-! ## Runs -/

/-- The positive samples that are added fit on their own, and so do the negative ones. -/
structure TotalsFit (samples : List Int) : Prop where
  positive : (samples.map (max 0)).sum ≤ 9223372036854775807
  negative : -9223372036854775808 ≤ (samples.map (min 0)).sum

instance (samples : List Int) : Decidable (TotalsFit samples) :=
  decidable_of_iff (_ ∧ _) ⟨fun h => ⟨h.1, h.2⟩, fun h => ⟨h.positive, h.negative⟩⟩

/-- The clock is off in one direction. -/
def OneSided (samples : List Int) : Prop :=
  (∀ sample ∈ samples, 0 ≤ sample) ∨ ∀ sample ∈ samples, sample ≤ 0

instance (samples : List Int) : Decidable (OneSided samples) :=
  inferInstanceAs (Decidable (_ ∨ _))

theorem sumFits_of_totalsFit {window : List Int} (h : TotalsFit (averaged window)) :
    SumFits window := by
  intro added hadded
  obtain ⟨rest, hrest⟩ := (List.mem_inits _ _).mp hadded
  have hpositive := h.positive
  have hnegative := h.negative
  rw [← hrest, List.map_append, List.sum_append] at hpositive hnegative
  have hlater : 0 ≤ (rest.map (max 0)).sum := List.sum_nonneg (by simp)
  have hlater' : (rest.map (min 0)).sum ≤ 0 := by
    have hle := List.sum_le_card_nsmul (rest.map (min (0 : Int))) 0 (by simp)
    rwa [nsmul_eq_mul, mul_zero] at hle
  have habove : added.sum ≤ (added.map (max 0)).sum := by
    have hle := List.sum_le_sum (l := added) (f := id) (g := max (0 : Int)) (by simp)
    rwa [List.map_id] at hle
  have hbelow : (added.map (min 0)).sum ≤ added.sum := by
    have hle := List.sum_le_sum (l := added) (f := min (0 : Int)) (g := id) (by simp)
    rwa [List.map_id] at hle
  exact ⟨by omega, by omega⟩

theorem totalsFit_of_sumFits {window : List Int} (hside : OneSided (averaged window))
    (h : SumFits window) : TotalsFit (averaged window) := by
  have hall := h _ ((List.mem_inits _ _).mpr List.prefix_rfl)
  rcases hside with hpositive | hnegative
  · have hmax : (averaged window).map (max 0) = averaged window :=
      (List.map_congr_left fun sample hsample =>
        max_eq_right (hpositive sample hsample)).trans (List.map_id _)
    have hmin : ((averaged window).map (min 0)).sum = 0 := by
      apply List.sum_eq_zero
      simpa using hpositive
    exact ⟨hmax.symm ▸ hall.2, by omega⟩
  · have hmin : (averaged window).map (min 0) = averaged window :=
      (List.map_congr_left fun sample hsample =>
        min_eq_right (hnegative sample hsample)).trans (List.map_id _)
    have hmax : ((averaged window).map (max 0)).sum = 0 := by
      apply List.sum_eq_zero
      simpa using hnegative
    exact ⟨by omega, hmin.symm ▸ hall.1⟩

/-- The samples that a callback adds up. -/
def addedUp (node : TimeSyncNode) (label : Label) : List Int := averaged (smoothedWindow node label)

/-- No reference passes the filter. -/
theorem everyStep_sums_of_late {cfg : Config}
    (hlate : 2147483647 < minGpsYearToEpoch cfg.minGpsYear)
    (monotonic system : Int) (labels : List Label) :
    EveryStep step Sums (initial cfg monotonic system) labels := by
  have hrejects : ∀ (node : TimeSyncNode) (msg : TimeReference), node.cfg = cfg →
      ¬ node.accepts msg := by
    intro node msg hcfg
    have hsec := msg.timeRef.sec.toInt_lt
    unfold TimeSyncNode.accepts
    rw [hcfg]
    omega
  have hnothing : SumFits [] := sumFits_of_bound (le_refl 0) (by simp) (by simp)
  apply everyStep_of_invariant step (fun node => node.cfg = cfg ∧ node.offsetWindow = [])
  · rintro node label ⟨hcfg, hwindow⟩
    have hidle : processed node label = [] := by
      unfold processed
      split
      next msg _ => exact if_neg (hrejects _ msg hcfg)
      next => rfl
    obtain ⟨hcfg', ⟨_, hwindow'⟩ | ⟨_, hwindow'⟩⟩ := step_window node label
    · rw [hidle] at hwindow'
      exact ⟨hcfg'.trans hcfg, hwindow'.trans hwindow⟩
    · exact ⟨hcfg'.trans hcfg, hwindow'⟩
  · rintro node label ⟨hcfg, hwindow⟩
    unfold Sums smoothedWindow
    split
    next msg _ =>
      have hrejected : ¬ (node.advance label.wait).accepts msg := hrejects _ msg hcfg
      rw [if_neg hrejected]
      exact hnothing
    next => exact hnothing
    next =>
      rw [hwindow]
      exact hnothing
  · exact ⟨rfl, rfl⟩

theorem everyStep_sums_of_small {cfg : Config}
    (hfits : cfg.windowSize * cfg.largestOffset ≤ 9223372036854775807)
    (monotonic system : Int) (labels : List Label) :
    EveryStep step Sums (initial cfg monotonic system) labels := by
  apply everyStep_of_invariant step
    (fun node => node.cfg = cfg ∧ Bounded node.cfg node.offsetWindow)
  · rintro node label ⟨hcfg, hbounded⟩
    exact ⟨(step_window node label).1.trans hcfg, hbounded.step label⟩
  · rintro node label ⟨rfl, hbounded⟩
    exact hbounded.sums hfits label
  · exact ⟨rfl, Bounded.nil⟩

/-- Three of the largest offsets never fit, and in a smaller window fewer do not. -/
theorem not_everyStep_sums_of_large {cfg : Config}
    (hyear : minGpsYearToEpoch cfg.minGpsYear ≤ 2147483647)
    (hlarge : 9223372036854775807 < cfg.windowSize * cfg.largestOffset) :
    ∃ references, ¬ EveryStep step Sums (initial cfg 0 0) (hopeless cfg references) := by
  have hbig : 4294967299294967295 ≤ cfg.largestOffset := by
    unfold Config.largestOffset
    split <;> omega
  have hpositive : 0 < cfg.windowSize := by
    by_contra hsmall
    have hproduct := mul_nonpos_of_nonpos_of_nonneg (not_lt.mp hsmall) (largestOffset_nonneg cfg)
    omega
  obtain ⟨more, hmore⟩ : ∃ more : Nat, (more + 1 : Int) = min cfg.windowSize 3 :=
    ⟨(min cfg.windowSize 3).toNat - 1, by omega⟩
  refine ⟨more + 1, fun hsums => ?_⟩
  have hroom : ((0 : Nat) : Int) + more < cfg.windowSize := by omega
  have hsum := (stuck_initial cfg 0 0 hyear).sum_of_everyStep hroom (by omega) hsums.2
  have hsum : ((0 + more + 1 : Nat) : Int) * cfg.largestOffset ≤ 9223372036854775807 := hsum
  have hcount : ((0 + more + 1 : Nat) : Int) = min cfg.windowSize 3 := by omega
  rw [hcount] at hsum
  rcases min_choice cfg.windowSize 3 with hmin | hmin
  · rw [hmin] at hsum
    omega
  · rw [hmin] at hsum
    omega

/-- In every run in which the positive and the negative samples fit on their own no sum
overflows, and for offsets in one direction in no others. No run overflows exactly for
configurations with so small a window that the largest offsets fit, or with so late a year that
no reference is valid. -/
theorem run_sums_iff (cfg : Config) :
    (∀ (monotonic system : Int) (labels : List Label),
      EveryStep step (fun node label => TotalsFit (addedUp node label))
          (initial cfg monotonic system) labels →
        EveryStep step Sums (initial cfg monotonic system) labels) ∧
    (∀ (monotonic system : Int) (labels : List Label),
      EveryStep step (fun node label => OneSided (addedUp node label))
          (initial cfg monotonic system) labels →
        EveryStep step Sums (initial cfg monotonic system) labels →
          EveryStep step (fun node label => TotalsFit (addedUp node label))
            (initial cfg monotonic system) labels) ∧
    ((∀ (monotonic system : Int) (labels : List Label),
      EveryStep step Sums (initial cfg monotonic system) labels) ↔
        2147483647 < minGpsYearToEpoch cfg.minGpsYear ∨
          cfg.windowSize * cfg.largestOffset ≤ 9223372036854775807) := by
  refine ⟨fun monotonic system labels => ?_, fun monotonic system labels hside hsums => ?_, ?_, ?_⟩
  · exact EveryStep.mono step fun node label hfits => sumFits_of_totalsFit hfits
  · exact (hside.and step hsums).mono step fun node label h => totalsFit_of_sumFits h.1 h.2
  · intro hall
    by_contra hneither
    rw [not_or, not_lt, not_le] at hneither
    obtain ⟨references, hoverflow⟩ := not_everyStep_sums_of_large hneither.1 hneither.2
    exact hoverflow (hall 0 0 (hopeless cfg references))
  · rintro (hlate | hfits)
    · exact everyStep_sums_of_late hlate
    · exact everyStep_sums_of_small hfits

/-- The board has started in 1970 and may not set its clock. -/
def unprivileged : List Label :=
  List.replicate 6 ⟨.timeReference ⟨⟨0, 0⟩, ⟨1790000000, 0⟩⟩, 0, true⟩

theorem sums_unprivileged_pair :
    EveryStep step Sums (initial {} 0 0) (unprivileged.take 2) ∧
      EveryStep step (fun node label => TotalsFit (addedUp node label)) (initial {} 0 0)
        (unprivileged.take 2) ∧
      EveryStep step Sums (initial { windowSize := 2 } 0 0) unprivileged :=
  ⟨(run_sums_iff {}).1 0 0 (unprivileged.take 2) (by decide +kernel),
    (run_sums_iff {}).2.1 0 0 (unprivileged.take 2) (by decide +kernel) (by decide +kernel),
    (run_sums_iff { windowSize := 2 }).2.2.mpr (Or.inr (by decide +kernel)) 0 0 unprivileged⟩

/-- The sixth reference carries the sum past the range. -/
theorem not_sums_unprivileged :
    ¬ ∀ (cfg : Config) (monotonic system : Int) (labels : List Label),
      EveryStep step Sums (initial cfg monotonic system) labels := by
  intro hall
  have hsums := hall {} 0 0 unprivileged
  exact absurd hsums.2.2.2.2.2.1 (by decide +kernel)

end AcflyRos.TimeSync

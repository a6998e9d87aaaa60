import AcflyRos.Foundation.Decay
import AcflyRos.TimeSync.Accumulator
import Mathlib.Data.Rat.Floor
import Mathlib.Tactic.IntervalCases

/-! # The loop that slewing closes

Every correction of the clock shows in the next sample, but the corrections follow the mean of
the window, which lags behind. Here each sample is the true offset, and the kernel has carried
out a correction when the next sample comes.
-/

namespace AcflyRos.TimeSync

open AcflyRos.Decay Finset

/-- The offset has not grown, nor changed its sign. -/
def Damps (before after : Int) : Prop := |after| ≤ |before| ∧ 0 ≤ before * after

instance (before after : Int) : Decidable (Damps before after) :=
  inferInstanceAs (Decidable (_ ∧ _))

/-! ## Offset and window -/

/-- The true offset in nanoseconds, and the samples so far. -/
structure Loop where
  offset : Int
  window : List Int := []
  deriving DecidableEq, Repr

namespace Loop

/-- A sample is taken, and the clock is slewed. -/
def next (windowSize : Int) (loop : Loop) : Loop :=
  let window := pushOffset windowSize loop.window loop.offset
  { offset := loop.offset - 1000 * TimeSyncNode.slewUs (smoothedOffsetMs window), window }

/-- The loop with GPS and system time exchanged. -/
def neg (loop : Loop) : Loop := ⟨-loop.offset, loop.window.map Neg.neg⟩

/-- One of so many steps does not damp the offset. -/
def overshoots (windowSize : Int) : Nat → Loop → Bool
  | 0, _ => false
  | steps + 1, loop =>
      !decide (Damps loop.offset (loop.next windowSize).offset) ||
        overshoots windowSize steps (loop.next windowSize)

/-- From one side, the offset has lost at most an eighth with every sample. -/
structure Settles (windowSize : Int) (loop : Loop) : Prop where
  nonneg : 0 ≤ loop.offset
  decays : Decays (8 / 7 : ℚ) ((loop.offset :: loop.window.reverse).map Int.cast)
  length : loop.window.length ≤ windowSize

end Loop

/-! ## Arithmetic of the correction -/

theorem truncate_neg (x : ℚ) : truncate (-x) = -truncate x := by
  unfold truncate
  rw [Rat.num_neg_eq_neg_num, Rat.den_neg_eq_den, Int.neg_tdiv]

theorem truncate_eq_floor {x : ℚ} (hx : 0 ≤ x) : truncate x = ⌊x⌋ := by
  unfold truncate
  rw [Int.tdiv_eq_ediv_of_nonneg (Rat.num_nonneg.mpr hx), Rat.floor_def']

namespace TimeSyncNode

theorem slewUs_neg (offsetMs : ℚ) : slewUs (-offsetMs) = -slewUs offsetMs := by
  unfold slewUs
  rw [neg_mul, neg_div, truncate_neg]
  omega

theorem slewUs_nonneg {offsetMs : ℚ} (hoffset : 0 ≤ offsetMs) : 0 ≤ slewUs offsetMs := by
  have hfloor : 0 ≤ ⌊offsetMs * 1000 / 20⌋ := Int.floor_nonneg.mpr (by positivity)
  unfold slewUs
  rw [truncate_eq_floor (by positivity)]
  omega

theorem slewUs_le {offsetMs : ℚ} (hoffset : 0 ≤ offsetMs) :
    (slewUs offsetMs : ℚ) ≤ offsetMs * 50 := by
  have hfloor : 0 ≤ ⌊offsetMs * 1000 / 20⌋ := Int.floor_nonneg.mpr (by positivity)
  have hle : slewUs offsetMs ≤ ⌊offsetMs * 1000 / 20⌋ := by
    unfold slewUs
    rw [truncate_eq_floor (by positivity)]
    omega
  calc (slewUs offsetMs : ℚ)
      ≤ (⌊offsetMs * 1000 / 20⌋ : ℚ) := Int.cast_le.mpr hle
    _ ≤ offsetMs * 1000 / 20 := Int.floor_le _
    _ = offsetMs * 50 := by ring

end TimeSyncNode

theorem sorted_neg (window : List Int) :
    sorted (window.map Neg.neg) = ((sorted window).map Neg.neg).reverse := by
  apply List.Perm.eq_of_pairwise' (sorted_pairwise _)
  · rw [List.pairwise_reverse, List.pairwise_map]
    exact (sorted_pairwise window).imp fun hle => neg_le_neg hle
  · exact (sorted_perm _).trans (((sorted_perm window).symm.map _).trans (List.reverse_perm _).symm)

theorem averaged_neg (window : List Int) :
    (averaged (window.map Neg.neg)).Perm ((averaged window).map Neg.neg) := by
  by_cases hfew : window.length < 10
  · rw [averaged_of_few hfew, averaged_of_few (by rwa [List.length_map])]
  · have hmany := not_lt.mp hfew
    rw [averaged_of_many hmany, averaged_of_many (by rwa [List.length_map]), sorted_neg,
      List.length_map, List.drop_reverse, List.take_reverse, ← List.map_take, ← List.map_drop]
    refine (List.reverse_perm _).trans ?_
    simp only [List.length_map, List.length_take, length_sorted]
    rw [List.drop_take]
    have hkept : window.length - window.length / 10 - window.length / 10 =
        window.length - 2 * (window.length / 10) := by omega
    have htrim : min (window.length - window.length / 10) window.length -
        (window.length - 2 * (window.length / 10)) = window.length / 10 := by omega
    rw [htrim, hkept]

theorem smoothedOffsetMs_neg (window : List Int) :
    smoothedOffsetMs (window.map Neg.neg) = -smoothedOffsetMs window := by
  have hperm := averaged_neg window
  rw [smoothedOffsetMs_eq, smoothedOffsetMs_eq, hperm.sum_eq, hperm.length_eq, List.length_map,
    ← List.sum_neg, Int.cast_neg, neg_div, neg_div]

/-! ## Short windows -/

/-- Newest first, as much of the samples as the window has room for. -/
theorem reverse_pushOffset {windowSize : Int} {window : List Int} (hleast : 1 ≤ windowSize)
    (hlength : window.length ≤ windowSize) (offset : Int) :
    (pushOffset windowSize window offset).reverse =
      (offset :: window.reverse).take windowSize.toNat := by
  unfold pushOffset
  dsimp only
  rw [List.length_append, List.length_singleton]
  split
  next =>
    rw [← List.dropLast_reverse, List.reverse_append, List.reverse_singleton, List.singleton_append,
      List.dropLast_eq_take, List.length_cons, List.length_reverse]
    congr 1
    omega
  next =>
    rw [List.reverse_append, List.reverse_singleton, List.singleton_append,
      List.take_of_length_le]
    rw [List.length_cons, List.length_reverse]
    omega

theorem sorted_of_descending {window : List Int} (h : window.reverse.Pairwise (· ≤ ·)) :
    sorted window = window.reverse := by
  apply List.Perm.eq_of_pairwise' (sorted_pairwise window) h
  exact (sorted_perm window).trans (List.reverse_perm window).symm

/-- Geometric progressions whose mean is at most five halves of their first term, or of the one
before it when the newest sample of ten to thirteen is left out. -/
theorem geom_le {n : Nat} (hn : n < 10) :
    ∑ i ∈ range n, (8 / 7 : ℚ) ^ i ≤ 5 / 2 * n := by
  interval_cases n <;> norm_num [sum_range_succ]

theorem geom_le_of_trimmed {n : Nat} (hleast : 8 ≤ n) (hmost : n ≤ 11) :
    8 / 7 * ∑ i ∈ range n, (8 / 7 : ℚ) ^ i ≤ 5 / 2 * n := by
  interval_cases n <;> norm_num [sum_range_succ]

section Sum

variable {window : List Int} {newest : Int} {older : List Int}
  (hwindow : window.reverse = newest :: older) (hnonneg : 0 ≤ newest)
  (h : Decays (8 / 7 : ℚ) ((newest :: older).map Int.cast))

include h

theorem pairwise_of_decays : (newest :: older).Pairwise (· ≤ ·) := by
  have hpairs := h.pairwise
  rw [List.pairwise_map] at hpairs
  exact hpairs.imp fun hle => Int.cast_le.mp hle

include hwindow hnonneg

theorem sum_averaged_nonneg : 0 ≤ (averaged window).sum := by
  apply List.sum_nonneg
  intro sample hsample
  have hmem : sample ∈ newest :: older := by
    rw [← hwindow, List.mem_reverse]
    exact averaged_subset hsample
  rcases List.mem_cons.mp hmem with rfl | hold
  · exact hnonneg
  · exact hnonneg.trans ((List.pairwise_cons.mp (pairwise_of_decays h)).1 sample hold)

theorem sum_averaged_le (hshort : window.length ≤ 13) :
    ((averaged window).sum : ℚ) ≤ newest * (5 / 2 * (averaged window).length) := by
  have hlength : window.length = older.length + 1 := by
    rw [← List.length_reverse, hwindow, List.length_cons]
  have hcast : (0 : ℚ) ≤ newest := Int.cast_nonneg hnonneg
  by_cases hfew : window.length < 10
  · have hsum := Decays.sum_le (by norm_num) h
    rw [← List.map_cons, ← Int.cast_list_sum, List.length_map, ← hlength, ← hwindow,
      List.sum_reverse] at hsum
    rw [averaged_of_few hfew]
    apply hsum.trans
    gcongr
    exact geom_le hfew
  · -- The newest and the oldest sample are left out.
    have hmany := not_lt.mp hfew
    have hkept : averaged window = older.take (older.length - 1) := by
      have htrim : window.length / 10 = 1 := by omega
      rw [averaged_of_many hmany, htrim, sorted_of_descending (hwindow ▸ pairwise_of_decays h),
        hwindow, List.drop_one, List.tail_cons]
      congr 1
      omega
    have hcount : (averaged window).length = older.length - 1 := by
      rw [hkept, List.length_take]
      omega
    have htaken := h.take (older.length - 1 + 1)
    rw [List.map_cons, List.take_succ_cons, ← List.map_take, ← hkept] at htaken
    have hsum := htaken.sum_old_le (by norm_num)
    rw [← Int.cast_list_sum, List.length_map] at hsum
    calc ((averaged window).sum : ℚ)
        ≤ 8 / 7 * newest * ∑ i ∈ range (averaged window).length, (8 / 7 : ℚ) ^ i := hsum
      _ = newest * (8 / 7 * ∑ i ∈ range (averaged window).length, (8 / 7 : ℚ) ^ i) := by ring
      _ ≤ newest * (5 / 2 * (averaged window).length) := by
          apply mul_le_mul_of_nonneg_left _ hcast
          exact geom_le_of_trimmed (by omega) (by omega)

/-- So a correction is at most an eighth of the newest sample. -/
theorem slew_le (hshort : window.length ≤ 13) :
    0 ≤ TimeSyncNode.slewUs (smoothedOffsetMs window) ∧
      (1000 * TimeSyncNode.slewUs (smoothedOffsetMs window) : ℚ) ≤ newest / 8 := by
  have hcast : (0 : ℚ) ≤ newest := Int.cast_nonneg hnonneg
  have hsum : (0 : ℚ) ≤ (averaged window).sum :=
    Int.cast_nonneg (sum_averaged_nonneg hwindow hnonneg h)
  have hmean : smoothedOffsetMs window ≤ newest * (5 / 2) / 1000000 := by
    rw [smoothedOffsetMs_eq]
    gcongr
    apply div_le_of_le_mul₀ (Nat.cast_nonneg _) (by positivity)
    rw [mul_assoc]
    exact sum_averaged_le hwindow hnonneg h hshort
  have hpositive : 0 ≤ smoothedOffsetMs window := by
    rw [smoothedOffsetMs_eq]
    positivity
  refine ⟨TimeSyncNode.slewUs_nonneg hpositive, ?_⟩
  linarith [TimeSyncNode.slewUs_le hpositive]

end Sum

namespace Loop

variable {windowSize : Int} {loop : Loop}

theorem Settles.next (h : loop.Settles windowSize) (hleast : 1 ≤ windowSize)
    (hmost : windowSize ≤ 13) :
    (loop.next windowSize).Settles windowSize ∧
      Damps loop.offset (loop.next windowSize).offset := by
  have hroom : ∃ room, windowSize.toNat = room + 1 := ⟨windowSize.toNat - 1, by omega⟩
  obtain ⟨room, hroom⟩ := hroom
  have hwindow : (pushOffset windowSize loop.window loop.offset).reverse =
      loop.offset :: loop.window.reverse.take room := by
    rw [reverse_pushOffset hleast h.length, hroom, List.take_succ_cons]
  have hlength : (pushOffset windowSize loop.window loop.offset).length ≤ windowSize := by
    rw [← List.length_reverse, reverse_pushOffset hleast h.length, List.length_take]
    omega
  have hdecays : Decays (8 / 7 : ℚ)
      ((loop.offset :: loop.window.reverse.take room).map Int.cast) := by
    have htaken := h.decays.take (room + 1)
    rwa [← List.map_take, List.take_succ_cons] at htaken
  obtain ⟨hpositive, hslew⟩ := slew_le hwindow h.nonneg hdecays (by omega)
  have hcast : (0 : ℚ) ≤ loop.offset := Int.cast_nonneg h.nonneg
  have hoffset : ((loop.next windowSize).offset : ℚ) = loop.offset -
      1000 * TimeSyncNode.slewUs (smoothedOffsetMs (pushOffset windowSize loop.window
        loop.offset)) := by
    simp [Loop.next]
  have hnonneg : 0 ≤ (loop.next windowSize).offset := by
    rw [← Int.cast_nonneg_iff (R := ℚ), hoffset]
    linarith
  have hle : (loop.next windowSize).offset ≤ loop.offset := by
    simp only [Loop.next]
    linarith
  refine ⟨⟨hnonneg, ?_, hlength⟩, ?_, mul_nonneg h.nonneg hnonneg⟩
  · show Decays (8 / 7 : ℚ) (((loop.next windowSize).offset ::
      (pushOffset windowSize loop.window loop.offset).reverse).map Int.cast)
    rw [hwindow, List.map_cons, List.map_cons]
    refine Decays.cons hdecays (Int.cast_le.mpr hle) ?_
    linarith
  · rwa [abs_of_nonneg hnonneg, abs_of_nonneg h.nonneg]

theorem next_neg (windowSize : Int) (loop : Loop) :
    loop.neg.next windowSize = (loop.next windowSize).neg := by
  have hwindow : pushOffset windowSize (loop.window.map Neg.neg) (-loop.offset) =
      (pushOffset windowSize loop.window loop.offset).map Neg.neg := by
    have happended : loop.window.map Neg.neg ++ [-loop.offset] =
        (loop.window ++ [loop.offset]).map Neg.neg := by simp
    unfold pushOffset
    dsimp only
    rw [happended, List.length_map]
    split
    next => exact List.map_tail.symm
    next => rfl
  unfold Loop.next Loop.neg
  dsimp only
  rw [hwindow, smoothedOffsetMs_neg, TimeSyncNode.slewUs_neg]
  congr 1
  ring

theorem settles_empty {offset : Int} (hoffset : 0 ≤ offset) (hleast : 1 ≤ windowSize) :
    Settles windowSize { offset } := ⟨hoffset, List.isChain_singleton _, by simp; omega⟩

/-- From either side. -/
theorem damps_next (hleast : 1 ≤ windowSize) (hmost : windowSize ≤ 13)
    (h : loop.Settles windowSize ∨ loop.neg.Settles windowSize) :
    ((loop.next windowSize).Settles windowSize ∨ (loop.next windowSize).neg.Settles windowSize) ∧
      Damps loop.offset (loop.next windowSize).offset := by
  rcases h with hpositive | hnegative
  · obtain ⟨hsettles, hdamps⟩ := hpositive.next hleast hmost
    exact ⟨Or.inl hsettles, hdamps⟩
  · obtain ⟨hsettles, hdamps⟩ := hnegative.next hleast hmost
    rw [next_neg] at hsettles hdamps
    refine ⟨Or.inr hsettles, ?_⟩
    simpa [Damps, Loop.neg] using hdamps

end Loop

end AcflyRos.TimeSync

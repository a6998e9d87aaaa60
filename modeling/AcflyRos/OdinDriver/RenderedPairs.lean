import Mathlib.Algebra.Order.Group.Int
import AcflyRos.OdinDriver.RenderQueue

/-! # What is rendered while no frame is displaced

A frame that is pushed out of a full queue is never looked at. As long as that does not happen,
the main loop pairs the two streams as if it had them whole: what it has processed when
`try_process_pair` returns depends on the frames received so far and not on the interleaving.
-/

namespace AcflyRos.OdinDriver.RenderQueue

open AcflyRos.Transition AcflyRos.Queues

universe u v

variable {I : Type u} {C : Type v}

/-- The pairs of two whole streams. -/
def pairsOf (rgbs : List (Frame I)) (pcds : List (Frame C)) : List (Frame I × Frame C) :=
  Pairing.greedy (fun rgb => rgb.stamp.ns) (fun pcd => pcd.stamp.ns) maxTimeDiff rgbs pcds

section Fronts

variable {rgb : Frame I} {pcd : Frame C} {rgbs laterRgbs : List (Frame I)}
  {pcds laterPcds : List (Frame C)}

theorem pairsOf_drop_pcd (hrgb : rgbs.head? = some rgb) (hpcd : pcds.head? = some pcd)
    (hclose : ¬ Close rgb pcd) (hlt : pcd.stamp.ns < rgb.stamp.ns) :
    pairsOf (rgbs ++ laterRgbs) (pcds ++ laterPcds) =
      pairsOf (rgbs ++ laterRgbs) (pcds.tail ++ laterPcds) := by
  obtain ⟨rgbs, rfl⟩ := List.head?_eq_some_iff.mp hrgb
  obtain ⟨pcds, rfl⟩ := List.head?_eq_some_iff.mp hpcd
  exact Pairing.greedy_drop_right hclose hlt

theorem pairsOf_drop_rgb (hrgb : rgbs.head? = some rgb) (hpcd : pcds.head? = some pcd)
    (hclose : ¬ Close rgb pcd) (hle : rgb.stamp.ns ≤ pcd.stamp.ns) :
    pairsOf (rgbs ++ laterRgbs) (pcds ++ laterPcds) =
      pairsOf (rgbs.tail ++ laterRgbs) (pcds ++ laterPcds) := by
  obtain ⟨rgbs, rfl⟩ := List.head?_eq_some_iff.mp hrgb
  obtain ⟨pcds, rfl⟩ := List.head?_eq_some_iff.mp hpcd
  exact Pairing.greedy_drop_left hclose hle

theorem pairsOf_take (hrgb : rgbs.head? = some rgb) (hpcd : pcds.head? = some pcd)
    (hclose : Close rgb pcd) :
    pairsOf (rgbs ++ laterRgbs) (pcds ++ laterPcds) =
      (rgb, pcd) :: pairsOf (rgbs.tail ++ laterRgbs) (pcds.tail ++ laterPcds) := by
  obtain ⟨rgbs, rfl⟩ := List.head?_eq_some_iff.mp hrgb
  obtain ⟨pcds, rfl⟩ := List.head?_eq_some_iff.mp hpcd
  exact Pairing.greedy_pair hclose

end Fronts

/-- A frame is queued where there is room for it. -/
def HasRoom (renderer : Renderer I C) : Label I C → Prop
  | .publishRgb _ => renderer.rgbImageQueue.length < maxQueueSize
  | .publishIntensityCloud _ => renderer.pcdQueue.length < maxQueueSize
  | .tryProcessPair => True

instance (renderer : Renderer I C) : ∀ label, Decidable (HasRoom renderer label)
  | .publishRgb _ => inferInstanceAs (Decidable (_ < _))
  | .publishIntensityCloud _ => inferInstanceAs (Decidable (_ < _))
  | .tryProcessPair => isTrue trivial

/-- Both frames that the main loop has looked at are still at the front. -/
def Renderer.Fronts (renderer : Renderer I C) (rgb : Frame I) (pcd : Frame C) : Prop :=
  renderer.rgbImageQueue.head? = some rgb ∧ renderer.pcdQueue.head? = some pcd

structure Renderer.Exact (renderer : Renderer I C) : Prop where
  /-- Whatever arrives later. -/
  pairs : ∀ rgbs pcds,
    renderer.processed ++
        pairsOf (renderer.rgbImageQueue ++ rgbs) (renderer.pcdQueue ++ pcds) =
      pairsOf (renderer.rgbReceived ++ rgbs) (renderer.pcdReceived ++ pcds)
  removing : ∀ rgb pcd, renderer.phase = .removing rgb pcd →
    renderer.Fronts rgb pcd ∧ ¬ Close rgb pcd
  taking : ∀ rgb pcd, renderer.phase = .taking rgb pcd →
    renderer.Fronts rgb pcd ∧ Close rgb pcd

namespace Renderer.Exact

variable {renderer next : Renderer I C}

theorem start : ({} : Renderer I C).Exact where
  pairs _ _ := rfl
  removing := by simp
  taking := by simp

theorem publishRgb (h : renderer.Exact) {frame : Frame I}
    (hroom : renderer.rgbImageQueue.length < maxQueueSize) :
    (renderer.publishRgb frame).Exact := by
  have hfront : ∀ rgb, renderer.rgbImageQueue.head? = some rgb →
      (pushBounded maxQueueSize renderer.rgbImageQueue frame).head? = some rgb := by
    intro rgb hrgb
    rw [pushBounded_of_lt hroom, List.head?_append, hrgb]
    rfl
  refine ⟨fun rgbs pcds => ?_, fun rgb pcd hphase => ?_, fun rgb pcd hphase => ?_⟩
  · have hpairs := h.pairs (frame :: rgbs) pcds
    simp only [Renderer.publishRgb, pushBounded_of_lt hroom, List.append_assoc,
      List.singleton_append]
    exact hpairs
  · obtain ⟨⟨hrgb, hpcd⟩, hclose⟩ := h.removing rgb pcd hphase
    exact ⟨⟨hfront rgb hrgb, hpcd⟩, hclose⟩
  · obtain ⟨⟨hrgb, hpcd⟩, hclose⟩ := h.taking rgb pcd hphase
    exact ⟨⟨hfront rgb hrgb, hpcd⟩, hclose⟩

theorem publishIntensityCloud (h : renderer.Exact) {frame : Frame C}
    (hroom : renderer.pcdQueue.length < maxQueueSize) :
    (renderer.publishIntensityCloud frame).Exact := by
  have hfront : ∀ pcd, renderer.pcdQueue.head? = some pcd →
      (pushBounded maxQueueSize renderer.pcdQueue frame).head? = some pcd := by
    intro pcd hpcd
    rw [pushBounded_of_lt hroom, List.head?_append, hpcd]
    rfl
  refine ⟨fun rgbs pcds => ?_, fun rgb pcd hphase => ?_, fun rgb pcd hphase => ?_⟩
  · have hpairs := h.pairs rgbs (frame :: pcds)
    simp only [Renderer.publishIntensityCloud, pushBounded_of_lt hroom, List.append_assoc,
      List.singleton_append]
    exact hpairs
  · obtain ⟨⟨hrgb, hpcd⟩, hclose⟩ := h.removing rgb pcd hphase
    exact ⟨⟨hrgb, hfront pcd hpcd⟩, hclose⟩
  · obtain ⟨⟨hrgb, hpcd⟩, hclose⟩ := h.taking rgb pcd hphase
    exact ⟨⟨hrgb, hfront pcd hpcd⟩, hclose⟩

theorem consumes (h : renderer.Exact) (hnext : Consumes renderer next) : next.Exact := by
  cases hnext with
  | call hphase => exact ⟨h.pairs, by simp, by simp⟩
  | ended hphase hempty => exact ⟨h.pairs, by simp, by simp⟩
  | apart hphase hrgb hpcd hdiff =>
      refine ⟨h.pairs, ?_, by simp⟩
      rintro _ _ heq
      obtain ⟨rfl, rfl⟩ := Phase.removing.inj heq
      exact ⟨⟨by simp [hrgb], by simp [hpcd]⟩, fun hclose => hdiff.not_ge (close_iff.mp hclose)⟩
  | near hphase hrgb hpcd hdiff =>
      refine ⟨h.pairs, by simp, ?_⟩
      rintro _ _ heq
      obtain ⟨rfl, rfl⟩ := Phase.taking.inj heq
      exact ⟨⟨by simp [hrgb], by simp [hpcd]⟩, close_iff.mpr hdiff⟩
  | removedPcd hphase hdiff =>
      obtain ⟨⟨hrgb, hpcd⟩, hclose⟩ := h.removing _ _ hphase
      rw [timeDiff_eq, sub_pos] at hdiff
      refine ⟨fun rgbs pcds => ?_, by simp, by simp⟩
      have hpairs := h.pairs rgbs pcds
      rw [pairsOf_drop_pcd hrgb hpcd hclose hdiff] at hpairs
      exact hpairs
  | removedRgb hphase hdiff =>
      obtain ⟨⟨hrgb, hpcd⟩, hclose⟩ := h.removing _ _ hphase
      rw [timeDiff_eq, sub_nonpos] at hdiff
      refine ⟨fun rgbs pcds => ?_, by simp, by simp⟩
      have hpairs := h.pairs rgbs pcds
      rw [pairsOf_drop_rgb hrgb hpcd hclose hdiff] at hpairs
      exact hpairs
  | took hphase =>
      obtain ⟨⟨hrgb, hpcd⟩, hclose⟩ := h.taking _ _ hphase
      refine ⟨fun rgbs pcds => ?_, by simp, by simp⟩
      have hpairs := h.pairs rgbs pcds
      rw [pairsOf_take hrgb hpcd hclose, List.append_cons] at hpairs
      exact hpairs

theorem step (h : renderer.Exact) (label : Label I C) (hroom : HasRoom renderer label) :
    (step renderer label).Exact := by
  cases label with
  | publishRgb frame => exact h.publishRgb hroom
  | publishIntensityCloud frame => exact h.publishIntensityCloud hroom
  | tryProcessPair => exact h.consumes (tryProcessPair_consumes renderer)

theorem run {labels : List (Label I C)} (hroom : EveryStep RenderQueue.step HasRoom {} labels) :
    (run RenderQueue.step {} labels).Exact :=
  run_keeps RenderQueue.step Renderer.Exact (fun _ label h hroom => h.step label hroom) start hroom

/-- Nothing is left to pair when a queue is empty. -/
theorem processed_eq (h : renderer.Exact)
    (hempty : renderer.rgbImageQueue = [] ∨ renderer.pcdQueue = []) :
    renderer.processed = pairsOf renderer.rgbReceived renderer.pcdReceived := by
  have hpairs := h.pairs [] []
  have hnone : pairsOf renderer.rgbImageQueue renderer.pcdQueue = [] := by
    rcases hempty with hnil | hnil <;> simp [pairsOf, hnil]
  simp only [List.append_nil, hnone] at hpairs
  exact hpairs

end Renderer.Exact

/-- While every frame finds room in its queue, what is processed is at any time a beginning of the
pairs of the two whole streams received so far, and all of them when `try_process_pair` has emptied
one of the queues: which pairs are rendered does not depend on the interleaving. -/
theorem processed_refines_pairs {labels : List (Label I C)}
    (hroom : EveryStep step HasRoom {} labels) :
    let renderer := run step {} labels
    renderer.processed <+: pairsOf renderer.rgbReceived renderer.pcdReceived ∧
      (renderer.rgbImageQueue = [] ∨ renderer.pcdQueue = [] →
        renderer.processed = pairsOf renderer.rgbReceived renderer.pcdReceived) := by
  have h := Renderer.Exact.run hroom
  refine ⟨?_, h.processed_eq⟩
  have hpairs := h.pairs [] []
  simp only [List.append_nil] at hpairs
  exact ⟨_, hpairs⟩

theorem processed_refines_pairs_oldCloudFirst :
    (run step {} oldCloudFirst).processed <+:
        pairsOf (run step {} oldCloudFirst).rgbReceived (run step {} oldCloudFirst).pcdReceived ∧
      ((run step {} oldCloudFirst).rgbImageQueue = [] ∨ (run step {} oldCloudFirst).pcdQueue = [] →
        (run step {} oldCloudFirst).processed =
          pairsOf (run step {} oldCloudFirst).rgbReceived
            (run step {} oldCloudFirst).pcdReceived) :=
  processed_refines_pairs (by decide)

/-- If moreover both streams arrive in the order of their stamps, then no other choice of disjoint
pairs within the limit, from all that was received, has more of them. -/
theorem processed_most_pairs {labels : List (Label I C)}
    (hroom : EveryStep step HasRoom {} labels)
    (hempty : (run step {} labels).rgbImageQueue = [] ∨ (run step {} labels).pcdQueue = [])
    (hrgbs : (run step {} labels).rgbReceived.Pairwise fun first second =>
      first.stamp.ns ≤ second.stamp.ns)
    (hpcds : (run step {} labels).pcdReceived.Pairwise fun first second =>
      first.stamp.ns ≤ second.stamp.ns)
    (pairs : Multiset (Frame I × Frame C))
    (hleft : pairs.map Prod.fst ≤ (run step {} labels).rgbReceived)
    (hright : pairs.map Prod.snd ≤ (run step {} labels).pcdReceived)
    (hclose : ∀ pair ∈ pairs, Close pair.1 pair.2) :
    pairs.card ≤ (run step {} labels).processed.length := by
  rw [(Renderer.Exact.run hroom).processed_eq hempty]
  exact Pairing.card_le_greedy hrgbs hpcds ⟨hleft, hright, hclose⟩

theorem processed_most_pairs_oldCloudFirst :
    Multiset.card {((⟨⟨1, 120000000⟩, 2⟩, ⟨⟨1, 100000000⟩, 1⟩) : Frame Nat × Frame Nat)} ≤
      (run step {} oldCloudFirst).processed.length :=
  processed_most_pairs (by decide) (by decide) (by decide) (by decide) _ (by decide) (by decide)
    (by decide)

end AcflyRos.OdinDriver.RenderQueue

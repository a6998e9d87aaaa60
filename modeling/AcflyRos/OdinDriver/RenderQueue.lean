import Mathlib.Data.BitVec
import Mathlib.Data.Int.Order.Basic
import AcflyRos.Foundation.Pairing
import AcflyRos.Foundation.Queues
import AcflyRos.Foundation.Transition

/-! # The queues of the coloured cloud

The driver colours point clouds with camera frames (`host_sdk_sample.h`). The callback thread
of the device queues frames in `publishRgb` and clouds in `publishIntensityCloud`; the main
loop calls `try_process_pair`, which looks at both fronts, lets go of the locks, compares the
stamps, and takes the locks again to pop. The critical sections of the two threads interleave
in any order.
-/

namespace AcflyRos.OdinDriver.RenderQueue

open AcflyRos.Transition AcflyRos.Queues

universe u v

/-! ## Stamps -/

/-- `builtin_interfaces/msg/Time`: `int32 sec`, `uint32 nanosec`. -/
structure Time where
  sec : BitVec 32
  nanosec : BitVec 32
  deriving DecidableEq, Repr

/-- `ros_time_to_ns`, a `uint64_t`. -/
def rosTimeToNs (t : Time) : BitVec 64 :=
  t.sec.signExtend 64 * 1000000000#64 + t.nanosec.zeroExtend 64

/-- `static_cast<int64_t>(rgb_stamp) - static_cast<int64_t>(pcd_stamp)` -/
def timeDiff (rgb pcd : Time) : Int :=
  (rosTimeToNs rgb - rosTimeToNs pcd).toInt

/-- `MAX_TIME_DIFF`: 50 ms. -/
def maxTimeDiff : Int := 50000000

/-- The time a stamp stands for, in nanoseconds. -/
def Time.ns (t : Time) : Int := t.sec.toInt * 1000000000 + t.nanosec.toNat

theorem Time.ns_bounds (t : Time) : -2147483648000000000 ≤ t.ns ∧ t.ns < 2147483652294967296 := by
  have hlow := t.sec.le_toInt
  have hhigh := t.sec.toInt_lt
  have hnano := t.nanosec.isLt
  unfold Time.ns
  omega

theorem toInt_rosTimeToNs (t : Time) : (rosTimeToNs t).toInt = t.ns := by
  have hbounds := t.ns_bounds
  have hlow := t.sec.le_toInt
  have hhigh := t.sec.toInt_lt
  have hnano : ((t.nanosec.zeroExtend 64 : BitVec 64)).toInt = t.nanosec.toNat := by
    rw [BitVec.toInt_eq_toNat_of_lt]
    · simp
      omega
    · simp; omega
  rw [rosTimeToNs, BitVec.toInt_add, BitVec.toInt_mul,
    BitVec.toInt_signExtend_of_le (by decide), hnano]
  unfold Time.ns at hbounds ⊢
  have : (1000000000#64).toInt = 1000000000 := by decide
  rw [this, Int.bmod_add_bmod, Int.bmod_eq_of_le (by omega) (by omega)]

/-- Subtracting two stamps does not overflow. -/
theorem timeDiff_eq (rgb pcd : Time) : timeDiff rgb pcd = rgb.ns - pcd.ns := by
  have hrgb := rgb.ns_bounds
  have hpcd := pcd.ns_bounds
  rw [timeDiff, BitVec.toInt_sub, toInt_rosTimeToNs, toInt_rosTimeToNs,
    Int.bmod_eq_of_le (by omega) (by omega)]

/-! ## The two threads -/

/-- A message: the stamp of its header, and what else is in it. -/
structure Frame (α : Type u) where
  stamp : Time
  content : α
  deriving DecidableEq, Repr

/-- Where the main loop is. -/
inductive Phase (I : Type u) (C : Type v) where
  /-- Outside `try_process_pair`. -/
  | idle
  /-- About to look at the fronts. -/
  | looking
  /-- The stamps are too far apart: about to pop the older front. -/
  | removing (rgb : Frame I) (pcd : Frame C)
  /-- About to pop both fronts and to process the pair. -/
  | taking (rgb : Frame I) (pcd : Frame C)
  deriving DecidableEq, Repr

/-- The frame that was at the front when the main loop looked. -/
def Phase.rgb? {I : Type u} {C : Type v} : Phase I C → Option (Frame I)
  | .removing rgb _ | .taking rgb _ => some rgb
  | _ => none

def Phase.pcd? {I : Type u} {C : Type v} : Phase I C → Option (Frame C)
  | .removing _ pcd | .taking _ pcd => some pcd
  | _ => none

def Phase.isIdle {I : Type u} {C : Type v} : Phase I C → Bool
  | .idle => true
  | _ => false

/-- How many critical sections are due before the next frame is popped, or the call returns. -/
def Phase.rank {I : Type u} {C : Type v} : Phase I C → Nat
  | .idle => 0
  | .looking => 2
  | _ => 1

structure Renderer (I : Type u) (C : Type v) where
  rgbImageQueue : List (Frame I) := []
  pcdQueue : List (Frame C) := []
  phase : Phase I C := .idle
  /-- The calls of `process_pair`, in order. -/
  processed : List (Frame I × Frame C) := []
  /-- What the callback thread has queued so far. -/
  rgbReceived : List (Frame I) := []
  pcdReceived : List (Frame C) := []
  /-- `pop_front` of an empty queue, which is undefined. -/
  fault : Bool := false
  deriving DecidableEq, Repr

variable {I : Type u} {C : Type v}

/-- `max_rgb_queue_size_`, `max_pcd_queue_size_` -/
def maxQueueSize : Nat := 10

theorem maxQueueSize_pos : 0 < maxQueueSize := by decide

namespace Renderer

def popRgb (renderer : Renderer I C) : Renderer I C :=
  { renderer with
    rgbImageQueue := renderer.rgbImageQueue.tail
    fault := renderer.fault || renderer.rgbImageQueue.isEmpty }

def popPcd (renderer : Renderer I C) : Renderer I C :=
  { renderer with
    pcdQueue := renderer.pcdQueue.tail
    fault := renderer.fault || renderer.pcdQueue.isEmpty }

/-- The end of `publishRgb`. -/
def publishRgb (renderer : Renderer I C) (frame : Frame I) : Renderer I C :=
  { renderer with
    rgbImageQueue := pushBounded maxQueueSize renderer.rgbImageQueue frame
    rgbReceived := renderer.rgbReceived ++ [frame] }

/-- The end of `publishIntensityCloud`. -/
def publishIntensityCloud (renderer : Renderer I C) (frame : Frame C) : Renderer I C :=
  { renderer with
    pcdQueue := pushBounded maxQueueSize renderer.pcdQueue frame
    pcdReceived := renderer.pcdReceived ++ [frame] }

/-- The next critical section of `try_process_pair`, or the call. -/
def tryProcessPair (renderer : Renderer I C) : Renderer I C :=
  match renderer.phase with
  | .idle => { renderer with phase := .looking }
  | .looking =>
      match renderer.rgbImageQueue, renderer.pcdQueue with
      | rgb :: _, pcd :: _ =>
          if maxTimeDiff < |timeDiff rgb.stamp pcd.stamp| then
            { renderer with phase := .removing rgb pcd }
          else { renderer with phase := .taking rgb pcd }
      | _, _ => { renderer with phase := .idle }
  | .removing rgb pcd =>
      if 0 < timeDiff rgb.stamp pcd.stamp then { renderer.popPcd with phase := .looking }
      else { renderer.popRgb with phase := .looking }
  | .taking rgb pcd =>
      { renderer.popRgb.popPcd with
        phase := .looking
        processed := renderer.processed ++ [(rgb, pcd)] }

end Renderer

/-- What happens next, and in which thread. -/
inductive Label (I : Type u) (C : Type v) where
  | publishRgb (frame : Frame I)
  | publishIntensityCloud (frame : Frame C)
  | tryProcessPair
  deriving DecidableEq, Repr

def Label.ofMainLoop : Label I C → Bool
  | .tryProcessPair => true
  | _ => false

def step (renderer : Renderer I C) : Label I C → Renderer I C
  | .publishRgb frame => renderer.publishRgb frame
  | .publishIntensityCloud frame => renderer.publishIntensityCloud frame
  | .tryProcessPair => renderer.tryProcessPair

/-- What a critical section of the main loop does. -/
inductive Consumes (renderer : Renderer I C) : Renderer I C → Prop where
  | call (hphase : renderer.phase = .idle) : Consumes renderer { renderer with phase := .looking }
  | ended (hphase : renderer.phase = .looking)
      (hempty : renderer.rgbImageQueue = [] ∨ renderer.pcdQueue = []) :
      Consumes renderer { renderer with phase := .idle }
  | apart {rgb pcd rgbs pcds} (hphase : renderer.phase = .looking)
      (hrgb : renderer.rgbImageQueue = rgb :: rgbs) (hpcd : renderer.pcdQueue = pcd :: pcds)
      (hdiff : maxTimeDiff < |timeDiff rgb.stamp pcd.stamp|) :
      Consumes renderer { renderer with phase := .removing rgb pcd }
  | near {rgb pcd rgbs pcds} (hphase : renderer.phase = .looking)
      (hrgb : renderer.rgbImageQueue = rgb :: rgbs) (hpcd : renderer.pcdQueue = pcd :: pcds)
      (hdiff : |timeDiff rgb.stamp pcd.stamp| ≤ maxTimeDiff) :
      Consumes renderer { renderer with phase := .taking rgb pcd }
  | removedPcd {rgb pcd} (hphase : renderer.phase = .removing rgb pcd)
      (hdiff : 0 < timeDiff rgb.stamp pcd.stamp) :
      Consumes renderer { renderer.popPcd with phase := .looking }
  | removedRgb {rgb pcd} (hphase : renderer.phase = .removing rgb pcd)
      (hdiff : timeDiff rgb.stamp pcd.stamp ≤ 0) :
      Consumes renderer { renderer.popRgb with phase := .looking }
  | took {rgb pcd} (hphase : renderer.phase = .taking rgb pcd) :
      Consumes renderer
        { renderer.popRgb.popPcd with
          phase := .looking
          processed := renderer.processed ++ [(rgb, pcd)] }

theorem tryProcessPair_consumes (renderer : Renderer I C) :
    Consumes renderer renderer.tryProcessPair := by
  unfold Renderer.tryProcessPair
  split
  next hphase => exact .call hphase
  next hphase =>
    split
    next hrgb hpcd =>
      split
      next hdiff => exact .apart hphase hrgb hpcd hdiff
      next hdiff => exact .near hphase hrgb hpcd (not_lt.mp hdiff)
    next hnone =>
      refine .ended hphase ?_
      rcases hqueue : renderer.rgbImageQueue with _ | ⟨rgb, rgbs⟩
      · exact Or.inl rfl
      · rcases hclouds : renderer.pcdQueue with _ | ⟨pcd, pcds⟩
        · exact Or.inr rfl
        · exact (hnone rgb rgbs pcd pcds hqueue hclouds).elim
  next rgb pcd hphase =>
    split
    next hdiff => exact .removedPcd hphase hdiff
    next hdiff => exact .removedRgb hphase (not_lt.mp hdiff)
  next rgb pcd hphase => exact .took hphase

/-! ## Safety of every interleaving -/

/-- The stamps of the two are within the limit. -/
def Close (rgb : Frame I) (pcd : Frame C) : Prop :=
  |rgb.stamp.ns - pcd.stamp.ns| ≤ maxTimeDiff

instance (rgb : Frame I) (pcd : Frame C) : Decidable (Close rgb pcd) :=
  inferInstanceAs (Decidable (_ ≤ _))

theorem close_iff {rgb : Frame I} {pcd : Frame C} :
    Close rgb pcd ↔ |timeDiff rgb.stamp pcd.stamp| ≤ maxTimeDiff := by
  rw [timeDiff_eq, Close]

structure Renderer.Safe (renderer : Renderer I C) : Prop where
  rgb : Served renderer.rgbReceived renderer.rgbImageQueue (renderer.processed.map Prod.fst)
    renderer.phase.rgb?
  pcd : Served renderer.pcdReceived renderer.pcdQueue (renderer.processed.map Prod.snd)
    renderer.phase.pcd?
  rgbBound : renderer.rgbImageQueue.length ≤ maxQueueSize
  pcdBound : renderer.pcdQueue.length ≤ maxQueueSize
  taking : ∀ rgb pcd, renderer.phase = .taking rgb pcd → Close rgb pcd
  close : ∀ pair ∈ renderer.processed, Close pair.1 pair.2
  defined : renderer.fault = false

namespace Renderer.Safe

variable {renderer next : Renderer I C}

theorem start : ({} : Renderer I C).Safe where
  rgb := Served.start
  pcd := Served.start
  rgbBound := Nat.zero_le _
  pcdBound := Nat.zero_le _
  taking := by simp
  close := by simp
  defined := rfl

theorem publishRgb (h : renderer.Safe) (frame : Frame I) : (renderer.publishRgb frame).Safe :=
  { h with
    rgb := h.rgb.push maxQueueSize_pos frame
    rgbBound := length_pushBounded_le maxQueueSize_pos h.rgbBound }

theorem publishIntensityCloud (h : renderer.Safe) (frame : Frame C) :
    (renderer.publishIntensityCloud frame).Safe :=
  { h with
    pcd := h.pcd.push maxQueueSize_pos frame
    pcdBound := length_pushBounded_le maxQueueSize_pos h.pcdBound }

theorem consumes (h : renderer.Safe) (hnext : Consumes renderer next) : next.Safe := by
  have hrgb := h.rgb
  have hpcd := h.pcd
  cases hnext with
  | call hphase =>
      rw [hphase] at hrgb hpcd
      exact { h with rgb := hrgb, pcd := hpcd, taking := by simp }
  | ended hphase hempty =>
      rw [hphase] at hrgb hpcd
      exact { h with rgb := hrgb, pcd := hpcd, taking := by simp }
  | apart hphase hrgbQueue hpcdQueue hdiff =>
      rw [hphase] at hrgb hpcd
      exact { h with rgb := hrgb.look hrgbQueue, pcd := hpcd.look hpcdQueue, taking := by simp }
  | near hphase hrgbQueue hpcdQueue hdiff =>
      rw [hphase] at hrgb hpcd
      refine { h with rgb := hrgb.look hrgbQueue, pcd := hpcd.look hpcdQueue, taking := ?_ }
      rintro rgb pcd heq
      obtain ⟨rfl, rfl⟩ := Phase.taking.inj heq
      exact close_iff.mpr hdiff
  | removedPcd hphase hdiff =>
      rw [hphase] at hrgb hpcd
      exact { h with
        rgb := hrgb.forget
        pcd := hpcd.discard
        pcdBound := length_tail_le h.pcdBound
        taking := by simp
        defined := by simp [Renderer.popPcd, h.defined, hpcd.queue_ne_nil] }
  | removedRgb hphase hdiff =>
      rw [hphase] at hrgb hpcd
      exact { h with
        rgb := hrgb.discard
        pcd := hpcd.forget
        rgbBound := length_tail_le h.rgbBound
        taking := by simp
        defined := by simp [Renderer.popRgb, h.defined, hrgb.queue_ne_nil] }
  | took hphase =>
      rw [hphase] at hrgb hpcd
      refine
        { rgb := by rw [List.map_append]; exact hrgb.take
          pcd := by rw [List.map_append]; exact hpcd.take
          rgbBound := length_tail_le h.rgbBound
          pcdBound := length_tail_le h.pcdBound
          taking := by simp
          close := ?_
          defined := by
            simp [Renderer.popRgb, Renderer.popPcd, h.defined, hrgb.queue_ne_nil,
              hpcd.queue_ne_nil] }
      intro pair hpair
      rcases List.mem_append.mp hpair with hold | hnew
      · exact h.close pair hold
      · obtain rfl := List.mem_singleton.mp hnew
        exact h.taking _ _ hphase

theorem step (h : renderer.Safe) (label : Label I C) : (step renderer label).Safe := by
  cases label with
  | publishRgb frame => exact h.publishRgb frame
  | publishIntensityCloud frame => exact h.publishIntensityCloud frame
  | tryProcessPair => exact h.consumes (tryProcessPair_consumes renderer)

theorem run (labels : List (Label I C)) : (run RenderQueue.step {} labels).Safe :=
  run_invariant RenderQueue.step Renderer.Safe (fun _ label h => h.step label) labels start

end Renderer.Safe

/-- However the threads interleave, nothing is popped from an empty queue, the queues stay within
their limit, and what is processed are pairs of frames within the limit that use every frame of
either stream at most once and in the order of its arrival. -/
theorem processed_in_order (labels : List (Label I C)) :
    let renderer := run step {} labels
    renderer.fault = false ∧ renderer.rgbImageQueue.length ≤ maxQueueSize ∧
      renderer.pcdQueue.length ≤ maxQueueSize ∧
      (renderer.processed.map Prod.fst).Sublist renderer.rgbReceived ∧
      (renderer.processed.map Prod.snd).Sublist renderer.pcdReceived ∧
      ∀ pair ∈ renderer.processed, |pair.1.stamp.ns - pair.2.stamp.ns| ≤ maxTimeDiff := by
  have h := Renderer.Safe.run labels
  exact ⟨h.defined, h.rgbBound, h.pcdBound, h.rgb.taken_sublist, h.pcd.taken_sublist, h.close⟩

/-- A cloud that is too old for the frame, and one that is not. -/
def oldCloudFirst : List (Label Nat Nat) :=
  [.publishIntensityCloud ⟨⟨1, 0⟩, 0⟩, .publishIntensityCloud ⟨⟨1, 100000000⟩, 1⟩,
    .publishRgb ⟨⟨1, 120000000⟩, 2⟩, .tryProcessPair, .tryProcessPair, .tryProcessPair,
    .tryProcessPair, .tryProcessPair]

/-- A frame that arrives between the look at the fronts and the pop displaces the one that is
processed, and the next one is popped without having been looked at. -/
example :
    let frames : List (Label Nat Nat) := (List.range 10).map fun n => .publishRgb ⟨⟨1, 0⟩, n⟩
    let renderer := run step {} (frames ++ [.publishIntensityCloud ⟨⟨1, 0⟩, 0⟩, .tryProcessPair,
      .tryProcessPair, .publishRgb ⟨⟨1, 0⟩, 10⟩, .tryProcessPair])
    renderer.processed.map (fun pair => pair.1.content) = [0] ∧
      renderer.rgbImageQueue.map Frame.content = [2, 3, 4, 5, 6, 7, 8, 9, 10] := by
  decide

/-! ## The end of a call -/

/-- The main loop is inside `try_process_pair`. -/
def Renderer.Busy (renderer : Renderer I C) : Prop := renderer.phase.isIdle = false

instance (renderer : Renderer I C) : Decidable renderer.Busy :=
  inferInstanceAs (Decidable (_ = _))

/-- How many critical sections the call can take with what is queued now. -/
def Renderer.budget (renderer : Renderer I C) : Nat :=
  2 * (renderer.rgbImageQueue.length + renderer.pcdQueue.length) + renderer.phase.rank

namespace Renderer

variable {renderer next : Renderer I C}

theorem budget_le (h : renderer.Safe) : renderer.budget ≤ 42 := by
  have hrank : renderer.phase.rank ≤ 2 := by
    cases renderer.phase <;> simp [Phase.rank]
  have hrgb : renderer.rgbImageQueue.length ≤ 10 := h.rgbBound
  have hpcd : renderer.pcdQueue.length ≤ 10 := h.pcdBound
  unfold budget
  omega

theorem budget_publishRgb (frame : Frame I) :
    (renderer.publishRgb frame).budget ≤ renderer.budget + 2 := by
  have hlength := length_pushBounded_le_succ maxQueueSize_pos renderer.rgbImageQueue frame
  simp only [budget, publishRgb]
  omega

theorem budget_publishIntensityCloud (frame : Frame C) :
    (renderer.publishIntensityCloud frame).budget ≤ renderer.budget + 2 := by
  have hlength := length_pushBounded_le_succ maxQueueSize_pos renderer.pcdQueue frame
  simp only [budget, publishIntensityCloud]
  omega

/-- Every section of the call spends one. -/
theorem budget_consumes (h : renderer.Safe) (hbusy : renderer.Busy)
    (hnext : Consumes renderer next) : next.budget + 1 ≤ renderer.budget := by
  have hrgb := h.rgb
  have hpcd := h.pcd
  cases hnext with
  | call hphase => simp [Busy, Phase.isIdle, hphase] at hbusy
  | ended hphase hempty =>
      simp only [budget, hphase, Phase.rank]
      omega
  | apart hphase => simp [budget, hphase, Phase.rank]
  | near hphase => simp [budget, hphase, Phase.rank]
  | removedPcd hphase hdiff =>
      rw [hphase] at hpcd
      have hlength := List.length_tail_add_one _ (List.length_pos_iff.mpr hpcd.queue_ne_nil)
      simp only [budget, popPcd, hphase, Phase.rank]
      omega
  | removedRgb hphase hdiff =>
      rw [hphase] at hrgb
      have hlength := List.length_tail_add_one _ (List.length_pos_iff.mpr hrgb.queue_ne_nil)
      simp only [budget, popRgb, hphase, Phase.rank]
      omega
  | took hphase =>
      rw [hphase] at hrgb
      have hlength := List.length_tail_add_one _ (List.length_pos_iff.mpr hrgb.queue_ne_nil)
      have hlengthPcd := renderer.pcdQueue.tail_sublist.length_le
      simp only [budget, popRgb, popPcd, hphase, Phase.rank]
      omega

theorem sections_le_budget (h : renderer.Safe) {labels : List (Label I C)}
    (hbusy : EveryStep step (fun renderer _ => renderer.Busy) renderer labels) :
    labels.countP Label.ofMainLoop ≤
      renderer.budget + 2 * labels.countP fun label => ! label.ofMainLoop := by
  induction labels generalizing renderer with
  | nil => simp
  | cons label labels ih =>
      have hrest := ih (h.step label) hbusy.2
      cases label with
      | publishRgb frame =>
          have hpush : (renderer.publishRgb frame).budget ≤ renderer.budget + 2 :=
            budget_publishRgb frame
          simp only [List.countP_cons, Label.ofMainLoop, step] at hrest ⊢
          simp only [Bool.false_eq_true, if_false, Bool.not_false, if_true]
          omega
      | publishIntensityCloud frame =>
          have hpush : (renderer.publishIntensityCloud frame).budget ≤ renderer.budget + 2 :=
            budget_publishIntensityCloud frame
          simp only [List.countP_cons, Label.ofMainLoop, step] at hrest ⊢
          simp only [Bool.false_eq_true, if_false, Bool.not_false, if_true]
          omega
      | tryProcessPair =>
          have hspent := budget_consumes h hbusy.1 (tryProcessPair_consumes renderer)
          simp only [List.countP_cons, Label.ofMainLoop, step] at hrest ⊢
          simp only [Bool.not_true, Bool.false_eq_true, if_false, if_true]
          omega

end Renderer

/-- A call of `try_process_pair` that has not returned has taken at most two critical sections for
each frame queued meanwhile, and forty-two more. -/
theorem tryProcessPair_bounded (before during : List (Label I C))
    (hbusy : EveryStep step (fun renderer _ => renderer.Busy) (run step {} before) during) :
    during.countP Label.ofMainLoop ≤
      42 + 2 * during.countP fun label => ! label.ofMainLoop := by
  have hsafe := Renderer.Safe.run before
  have hbudget := Renderer.budget_le hsafe
  have hsections := Renderer.sections_le_budget hsafe hbusy
  omega

theorem tryProcessPair_bounded_oldCloudFirst :
    oldCloudFirst.tail.tail.tail.tail.countP Label.ofMainLoop ≤
      42 + 2 * oldCloudFirst.tail.tail.tail.tail.countP fun label => ! label.ofMainLoop :=
  tryProcessPair_bounded (oldCloudFirst.take 4) (oldCloudFirst.drop 4) (by decide)

end AcflyRos.OdinDriver.RenderQueue

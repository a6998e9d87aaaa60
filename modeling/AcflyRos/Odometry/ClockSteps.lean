import AcflyRos.Odometry.Node

/-! # Steps of the clock

Three times that a tick measures decide what it does with a frame: the time since the start
of the node, since the last reset, and between the last frame sent on and the present one.
They are differences of readings of the system clock, and so off by what that clock gained
on the monotonic clock.
-/

namespace AcflyRos.Odometry

open AcflyRos.Transition TimeSync

universe u v

namespace Moment

variable (early late : Moment)

def elapsed : Int := late.monotonic - early.monotonic

/-- What the system clock gained on the monotonic clock. -/
def gain : Int := late.shift - early.shift

theorem system_sub : late.system - early.system = early.elapsed late + early.gain late := by
  unfold system elapsed gain
  omega

end Moment

variable {μ : Type u} {α : Type v}

namespace OdomGravityAlignNode

variable (node : OdomGravityAlignNode μ α)

def lastReset : Option Moment := (resetMoments node.log).head?

def lastPublished : Option (Frame μ) := (publications node.log).head?.map Publication.odom

/-- The attitude of the flight controller is used, when there is one, while the alignment window
lasts. -/
def Windowed : Prop :=
  ∀ sent ∈ publications node.log,
    sent.used = if seconds (node.started.elapsed sent.moment) < node.cfg.attitudeAlignmentSec
      then sent.att else none

/-- Any two resets are the cooldown apart. -/
def Spaced : Prop :=
  (resetMoments node.log).Pairwise fun late early =>
    node.cfg.resetCooldownSec ≤ seconds (early.elapsed late)

/-- Captured after the last frame that was sent on. -/
def Fresh (odom : Frame μ) : Prop :=
  ∀ last ∈ node.lastPublished, 0 < last.captured.elapsed odom.captured

instance (odom : Frame μ) : Decidable (node.Fresh odom) :=
  inferInstanceAs (Decidable (∀ last ∈ node.lastPublished, _))

/-- More than a second after the last reset. -/
def Settled : Prop := ∀ reset ∈ node.lastReset, 1 < seconds (reset.elapsed node.now)

instance : Decidable node.Settled := inferInstanceAs (Decidable (∀ reset ∈ node.lastReset, _))

/-- A tick that finds a fresh frame sends it on, unless the last reset is less than a second
ago. -/
def Delivers (align : μ → Option α → μ) (node : OdomGravityAlignNode μ α) : Label μ α → Prop
  | .timerCb opens => ∀ odom ∈ node.latestOdom, node.Fresh odom →
      (node.timerCb align opens).Settled →
        (node.timerCb align opens).lastPublished = some odom
  | _ => True

instance [DecidableEq μ] (align : μ → Option α → μ) (label : Label μ α) :
    Decidable (Delivers align node label) :=
  match label with
  | .timerCb _ => inferInstanceAs (Decidable (∀ odom ∈ node.latestOdom, _))
  | .elapse _ => isTrue trivial
  | .stepClock _ => isTrue trivial
  | .capture _ _ => isTrue trivial
  | .odomCb _ => isTrue trivial
  | .attCb _ => isTrue trivial

/-- No gain of the clock carries a time that the tick measures over the limit that it compares it
with. -/
structure KeepsLimits (opens : Bool) : Prop where
  window : ∀ odom ∈ node.latestOdom, node.Sends opens odom → node.latestAtt.isSome = true →
    (seconds (node.started.elapsed node.now + node.started.gain node.now) <
        node.cfg.attitudeAlignmentSec ↔
      seconds (node.started.elapsed node.now) < node.cfg.attitudeAlignmentSec)
  cooldown : ∀ odom ∈ node.latestOdom, node.IsNew odom → node.Resets opens odom →
    ∀ reset ∈ node.lastReset,
      node.cfg.resetCooldownSec < seconds (reset.elapsed node.now + reset.gain node.now) →
        node.cfg.resetCooldownSec ≤ seconds (reset.elapsed node.now)
  stamp : ∀ odom ∈ node.latestOdom, node.Fresh odom → node.Settled →
    ∀ last ∈ node.lastPublished,
      0 < last.captured.elapsed odom.captured + last.captured.gain odom.captured
  firstStamp : ∀ odom ∈ node.latestOdom, node.Settled → node.lastPublished = none → 0 < odom.stamp
  silence : ∀ odom ∈ node.latestOdom, node.Fresh odom → ¬ node.Resets opens odom →
    ∀ reset ∈ node.lastReset, 1 < seconds (reset.elapsed node.now) →
      1 < seconds (reset.elapsed node.now + reset.gain node.now)
  firstSilence : ∀ odom ∈ node.latestOdom, node.Fresh odom → ¬ node.Resets opens odom →
    node.lastReset = none → 1 < seconds node.now.system

end OdomGravityAlignNode

/-! ## What the node remembers -/

/-- The times that the node keeps are those of its log. -/
structure Tracked (node : OdomGravityAlignNode μ α) : Prop where
  start : node.nodeStartTime = node.started.system
  reset : node.lastResetTime = (node.lastReset.map Moment.system).getD 0
  published : node.lastPublishedStamp = (node.lastPublished.map Frame.stamp).getD 0
  past : ∀ reset ∈ resetMoments node.log, reset.monotonic ≤ node.now.monotonic
  ordered : (resetMoments node.log).Pairwise fun late early => early.monotonic ≤ late.monotonic

namespace Tracked

variable {node : OdomGravityAlignNode μ α} (h : Tracked node) {odom : Frame μ}

/-- Nothing happens but that the frames and the clocks move on. -/
theorem elapse (h : Tracked node) (now : Moment) (hle : node.now.monotonic ≤ now.monotonic)
    (inTransit : List (Frame μ)) (latestOdom : Option (Frame μ)) (latestAtt : Option α) :
    Tracked { node with now, inTransit, latestOdom, latestAtt } :=
  ⟨h.start, h.reset, h.published, fun reset hreset => (h.past reset hreset).trans hle, h.ordered⟩

theorem of_log (h : Tracked node) (cnt : Int) {log : List (Entry μ α)}
    (hmoments : resetMoments log = resetMoments node.log)
    (hpublications : publications log = publications node.log) :
    Tracked { node with covDegradeCnt := cnt, log := log } := by
  refine ⟨h.start, ?_, ?_, ?_, ?_⟩
  · simp [OdomGravityAlignNode.lastReset, hmoments, h.reset]
  · simp [OdomGravityAlignNode.lastPublished, hpublications, h.published]
  · simpa [hmoments] using h.past
  · simpa [hmoments] using h.ordered

theorem publishAligned (h : Tracked node) (align : μ → Option α → μ) (odom : Frame μ) :
    Tracked (node.publishAligned align odom) :=
  ⟨h.start, h.reset, rfl, h.past, h.ordered⟩

theorem outcome {align : μ → Option α → μ} {opens : Bool} {after : OdomGravityAlignNode μ α}
    (h : Tracked node) (hout : OdomGravityAlignNode.Outcome align opens node after) :
    Tracked after := by
  cases hout with
  | idle => exact h
  | resets odom diag =>
      refine ⟨h.start, rfl, h.published, ?_, ?_⟩
      · rintro reset (_ | ⟨_, hreset⟩)
        · exact le_rfl
        · exact h.past reset hreset
      · exact List.pairwise_cons.mpr ⟨h.past, h.ordered⟩
  | withheld odom cnt log _ _ _ _ hmoments hpublications =>
      exact h.of_log cnt hmoments hpublications
  | sends odom cnt log _ _ hmoments hpublications =>
      exact (h.of_log cnt hmoments hpublications).publishAligned align odom

theorem step (h : Tracked node) (align : μ → Option α → μ) (label : Label μ α) :
    Tracked (step align node label) := by
  cases label with
  | elapse ns => exact h.elapse _ (by simp) _ _ _
  | stepClock offset =>
      exact h.elapse { node.now with shift := node.now.shift + offset } le_rfl _ _ _
  | capture variances motion => exact h.elapse _ le_rfl _ _ _
  | odomCb index =>
      simp only [Odometry.step]
      split
      · exact h
      · exact h.elapse _ le_rfl _ _ _
  | attCb att => exact h.elapse _ le_rfl _ _ _
  | timerCb opens => exact h.outcome (node.timerCb_outcome opens align)

include h

/-- The filter on stamps measures the time between two captures. -/
theorem isNew_iff : node.IsNew odom ↔
    (∀ last ∈ node.lastPublished,
      0 < last.captured.elapsed odom.captured + last.captured.gain odom.captured) ∧
        (node.lastPublished = none → 0 < odom.stamp) := by
  unfold OdomGravityAlignNode.IsNew
  rw [h.published]
  cases node.lastPublished with
  | none => simp
  | some last => simp [← Moment.system_sub, Frame.stamp]

theorem recovering_iff : ¬ node.Recovering ↔
    (∀ reset ∈ node.lastReset, 1 < seconds (reset.elapsed node.now + reset.gain node.now)) ∧
      (node.lastReset = none → 1 < seconds node.now.system) := by
  unfold OdomGravityAlignNode.Recovering
  rw [h.reset]
  cases node.lastReset with
  | none => simp
  | some reset => simp [← Moment.system_sub]

/-- A limit kept since the last reset is kept since all of them. -/
theorem forall_reset_iff (limit : ℚ) :
    (∀ reset ∈ resetMoments node.log, limit ≤ seconds (reset.elapsed node.now)) ↔
      ∀ reset ∈ node.lastReset, limit ≤ seconds (reset.elapsed node.now) := by
  have hordered := h.ordered
  unfold OdomGravityAlignNode.lastReset
  cases hresets : resetMoments node.log with
  | nil => simp
  | cons last earlier =>
      rw [hresets, List.pairwise_cons] at hordered
      simp only [List.forall_mem_cons, List.head?_cons, Option.mem_some_iff, forall_eq']
      -- The earlier ones are longer ago.
      refine and_iff_left_of_imp fun hlast reset hreset => hlast.trans (seconds_mono ?_)
      have hle := hordered.1 reset hreset
      unfold Moment.elapsed
      omega

theorem cooled (hasks : node.AsksReset odom) : ∀ reset ∈ node.lastReset,
    node.cfg.resetCooldownSec < seconds (reset.elapsed node.now + reset.gain node.now) := by
  intro reset hreset
  have hover := hasks.2
  rw [h.reset, Option.mem_def.mp hreset] at hover
  rwa [← Moment.system_sub]

end Tracked

theorem tracked_initial (cfg : Config) (now : Moment) :
    Tracked (initial cfg now : OdomGravityAlignNode μ α) :=
  ⟨rfl, rfl, rfl, by simp [initial, resetMoments], by simp [initial, resetMoments]⟩

/-! ## One tick -/

section Tick

variable {node after : OdomGravityAlignNode μ α} {align : μ → Option α → μ} {opens : Bool}

theorem publications_publishAligned (odom : Frame μ) :
    publications (node.publishAligned align odom).log =
      ⟨node.now, odom,
        ⟨odom.stamp, node.cfg.odomFrame, node.cfg.childFrame, odom.variances,
          align odom.motion
            (if seconds (node.now.system - node.nodeStartTime) < node.cfg.attitudeAlignmentSec
              then node.latestAtt else none)⟩,
        node.latestAtt,
        if seconds (node.now.system - node.nodeStartTime) < node.cfg.attitudeAlignmentSec
          then node.latestAtt else none⟩ :: publications node.log :=
  rfl

theorem resetMoments_publishAligned (odom : Frame μ) :
    resetMoments (node.publishAligned align odom).log = resetMoments node.log :=
  rfl

theorem if_some_eq_iff {choice : Option α} {p q : Prop} [Decidable p] [Decidable q] :
    ((if p then choice else none) = if q then choice else none) ↔
      (choice.isSome = true → (p ↔ q)) := by
  cases choice with
  | none => simp
  | some att => by_cases hp : p <;> by_cases hq : q <;> simp [hp, hq]

theorem windowed_iff (h : Tracked node)
    (hout : OdomGravityAlignNode.Outcome align opens node after) :
    after.Windowed ↔ node.Windowed ∧
      ∀ odom ∈ node.latestOdom, node.Sends opens odom → node.latestAtt.isSome = true →
        (seconds (node.started.elapsed node.now + node.started.gain node.now) <
            node.cfg.attitudeAlignmentSec ↔
          seconds (node.started.elapsed node.now) < node.cfg.attitudeAlignmentSec) := by
  cases hout with
  | idle hnone =>
      exact (and_iff_left fun odom hodom hsends => absurd hsends.1 (hnone odom hodom)).symm
  | resets odom diag hodom hnew hresets =>
      refine (and_iff_left ?_).symm
      intro other hother hsends
      obtain rfl := Option.some_inj.mp (hodom.symm.trans hother)
      exact absurd hresets hsends.2.1
  | withheld odom cnt log hodom hnew hresets hrecovering hmoments hpublications =>
      have hsame : OdomGravityAlignNode.Windowed { node with covDegradeCnt := cnt, log := log } ↔
          node.Windowed := by
        simp only [OdomGravityAlignNode.Windowed, hpublications]
      rw [hsame]
      exact (and_iff_left fun other hother hsends => absurd hrecovering hsends.2.2).symm
  | sends odom cnt log hodom hsends hmoments hpublications =>
      simp only [OdomGravityAlignNode.Windowed, publications_publishAligned, hpublications,
        List.forall_mem_cons, h.start, Moment.system_sub, if_some_eq_iff]
      rw [and_comm]
      refine and_congr Iff.rfl ⟨fun hwindow _ _ _ => hwindow, fun hall => hall odom hodom hsends⟩

theorem spaced_iff (h : Tracked node)
    (hout : OdomGravityAlignNode.Outcome align opens node after) :
    after.Spaced ↔ node.Spaced ∧
      ∀ odom ∈ node.latestOdom, node.IsNew odom → node.Resets opens odom →
        ∀ reset ∈ node.lastReset,
          node.cfg.resetCooldownSec < seconds (reset.elapsed node.now + reset.gain node.now) →
            node.cfg.resetCooldownSec ≤ seconds (reset.elapsed node.now) := by
  cases hout with
  | idle hnone =>
      exact (and_iff_left fun odom hodom hnew => absurd hnew (hnone odom hodom)).symm
  | resets odom diag hodom hnew hresets =>
      have hlast : (∀ reset ∈ node.lastReset,
            node.cfg.resetCooldownSec < seconds (reset.elapsed node.now + reset.gain node.now) →
              node.cfg.resetCooldownSec ≤ seconds (reset.elapsed node.now)) ↔
          ∀ reset ∈ resetMoments node.log,
            node.cfg.resetCooldownSec ≤ seconds (reset.elapsed node.now) := by
        rw [h.forall_reset_iff]
        exact forall₂_congr fun reset hreset => forall_prop_of_true (h.cooled hresets.2.1 _ hreset)
      rw [and_comm]
      refine List.pairwise_cons.trans (and_congr_left fun _ => hlast.symm.trans ?_)
      constructor
      · exact fun hcooldown _ _ _ _ => hcooldown
      · exact fun hall => hall odom hodom hnew hresets
  | withheld odom cnt log hodom hnew hresets hrecovering hmoments hpublications =>
      simp only [OdomGravityAlignNode.Spaced, hmoments]
      refine (and_iff_left ?_).symm
      intro other hother _ hother'
      obtain rfl := Option.some_inj.mp (hodom.symm.trans hother)
      exact absurd hother' hresets
  | sends odom cnt log hodom hsends hmoments hpublications =>
      simp only [OdomGravityAlignNode.Spaced, resetMoments_publishAligned, hmoments]
      refine (and_iff_left ?_).symm
      intro other hother _ hother'
      obtain rfl := Option.some_inj.mp (hodom.symm.trans hother)
      exact absurd hother' hsends.2.1

theorem delivers_iff (hout : OdomGravityAlignNode.Outcome align opens node after) :
    (∀ odom ∈ node.latestOdom, node.Fresh odom → after.Settled →
        after.lastPublished = some odom) ↔
      ∀ odom ∈ node.latestOdom, node.Fresh odom → node.Settled →
        node.IsNew odom ∧ (node.Resets opens odom ∨ ¬ node.Recovering) := by
  -- A frame that was sent on is not newer than itself.
  have hnotFresh : ∀ odom, node.Fresh odom → node.lastPublished ≠ some odom := by
    intro odom hfresh hlast
    have helapsed := hfresh odom hlast
    simp [Moment.elapsed] at helapsed
  cases hout with
  | idle hnone =>
      refine forall₄_congr fun odom hodom hfresh hsettled => ?_
      simp [hnotFresh odom hfresh, hnone odom hodom]
  | resets odom diag hodom hnew hresets =>
      -- The reset is not yet a second ago, so that nothing is asked for.
      apply iff_of_true
      · intro other hother hfresh hsettled
        have helapsed := hsettled node.now rfl
        simp [Moment.elapsed, seconds] at helapsed
        norm_num at helapsed
      · intro other hother hfresh hsettled
        obtain rfl := Option.some_inj.mp (hodom.symm.trans hother)
        exact ⟨hnew, Or.inl hresets⟩
  | withheld odom cnt log hodom hnew hresets hrecovering hmoments hpublications =>
      refine forall₂_congr fun other hother => ?_
      obtain rfl := Option.some_inj.mp (hodom.symm.trans hother)
      refine forall_congr' fun hfresh => ?_
      have hsettled : OdomGravityAlignNode.Settled { node with covDegradeCnt := cnt, log := log } ↔
          node.Settled := by
        simp only [OdomGravityAlignNode.Settled, OdomGravityAlignNode.lastReset, hmoments]
      have hlast : OdomGravityAlignNode.lastPublished
          { node with covDegradeCnt := cnt, log := log } = node.lastPublished := by
        simp only [OdomGravityAlignNode.lastPublished, hpublications]
      simp [hsettled, hlast, hnotFresh odom hfresh, hresets, hrecovering]
  | sends odom cnt log hodom hsends hmoments hpublications =>
      apply iff_of_true
      · intro other hother hfresh hsettled
        obtain rfl := Option.some_inj.mp (hodom.symm.trans hother)
        simp [OdomGravityAlignNode.lastPublished, publications_publishAligned]
      · intro other hother hfresh hsettled
        obtain rfl := Option.some_inj.mp (hodom.symm.trans hother)
        exact ⟨hsends.1, Or.inr hsends.2.2⟩

end Tick

/-- The limits on the stamps and on the silence are kept when the tick sends a fresh frame on. -/
theorem keepsLimits_iff {node : OdomGravityAlignNode μ α} (h : Tracked node) (opens : Bool) :
    node.KeepsLimits opens ↔
      (∀ odom ∈ node.latestOdom, node.Sends opens odom → node.latestAtt.isSome = true →
        (seconds (node.started.elapsed node.now + node.started.gain node.now) <
            node.cfg.attitudeAlignmentSec ↔
          seconds (node.started.elapsed node.now) < node.cfg.attitudeAlignmentSec)) ∧
      (∀ odom ∈ node.latestOdom, node.IsNew odom → node.Resets opens odom →
        ∀ reset ∈ node.lastReset,
          node.cfg.resetCooldownSec < seconds (reset.elapsed node.now + reset.gain node.now) →
            node.cfg.resetCooldownSec ≤ seconds (reset.elapsed node.now)) ∧
      ∀ odom ∈ node.latestOdom, node.Fresh odom → node.Settled →
        node.IsNew odom ∧ (node.Resets opens odom ∨ ¬ node.Recovering) := by
  constructor
  · intro hkeeps
    refine ⟨hkeeps.window, hkeeps.cooldown, fun odom hodom hfresh hsettled => ⟨?_, ?_⟩⟩
    · exact h.isNew_iff.mpr ⟨hkeeps.stamp odom hodom hfresh hsettled,
        hkeeps.firstStamp odom hodom hsettled⟩
    · by_cases hresets : node.Resets opens odom
      · exact Or.inl hresets
      · refine Or.inr (h.recovering_iff.mpr ⟨fun reset hreset => ?_, ?_⟩)
        · exact hkeeps.silence odom hodom hfresh hresets reset hreset (hsettled reset hreset)
        · exact hkeeps.firstSilence odom hodom hfresh hresets
  · rintro ⟨hwindow, hcooldown, hsends⟩
    have hnone : node.lastReset = none → node.Settled := by
      intro hnone
      simp [OdomGravityAlignNode.Settled, hnone]
    refine ⟨hwindow, hcooldown, ?_, ?_, ?_, ?_⟩
    · intro odom hodom hfresh hsettled
      exact (h.isNew_iff.mp (hsends odom hodom hfresh hsettled).1).1
    · intro odom hodom hsettled hnever
      have hfresh : node.Fresh odom := by simp [OdomGravityAlignNode.Fresh, hnever]
      exact (h.isNew_iff.mp (hsends odom hodom hfresh hsettled).1).2 hnever
    · intro odom hodom hfresh hresets reset hreset hover
      have hsettled : node.Settled := by
        intro other hother
        obtain rfl := Option.some_inj.mp (hreset.symm.trans hother)
        exact hover
      have hrecovered := (hsends odom hodom hfresh hsettled).2.resolve_left hresets
      exact (h.recovering_iff.mp hrecovered).1 reset hreset
    · intro odom hodom hfresh hresets hnever
      have hrecovered := (hsends odom hodom hfresh (hnone hnever)).2.resolve_left hresets
      exact (h.recovering_iff.mp hrecovered).2 hnever

/-! ## Runs -/

/-- The limits are kept at every tick. -/
def Keeps (node : OdomGravityAlignNode μ α) : Label μ α → Prop
  | .timerCb opens => node.KeepsLimits opens
  | _ => True

/-- The alignment window, the cooldown and the silence after a reset are as long on the monotonic
clock as they are meant to be. -/
structure Robust (align : μ → Option α → μ) (node : OdomGravityAlignNode μ α)
    (labels : List (Label μ α)) : Prop where
  windowed : (run (step align) node labels).Windowed
  spaced : (run (step align) node labels).Spaced
  delivers : EveryStep (step align) (OdomGravityAlignNode.Delivers align) node labels

theorem step_promises_iff (align : μ → Option α → μ) {node : OdomGravityAlignNode μ α}
    (h : Tracked node) (label : Label μ α) :
    ((step align node label).Windowed ∧ (step align node label).Spaced) ∧
        OdomGravityAlignNode.Delivers align node label ↔
      (node.Windowed ∧ node.Spaced) ∧ Keeps node label := by
  cases label with
  | timerCb opens =>
      have hout := node.timerCb_outcome opens align
      simp only [step, Keeps, OdomGravityAlignNode.Delivers]
      rw [windowed_iff h hout, spaced_iff h hout, delivers_iff hout, keepsLimits_iff h]
      tauto
  | odomCb index =>
      simp only [step]
      split <;> exact Iff.rfl
  | _ => exact Iff.rfl

theorem run_robust_iff (align : μ → Option α → μ) (cfg : Config) (now : Moment)
    (labels : List (Label μ α)) :
    Robust align (initial cfg now) labels ↔
      EveryStep (step align) Keeps (initial cfg now) labels := by
  have hpromises := run_promises_iff (step align) Tracked
    (fun node => node.Windowed ∧ node.Spaced)
    (fun node label htracked => ⟨htracked.step align label, step_promises_iff align htracked label⟩)
    labels (tracked_initial cfg now)
  have hstart : (initial cfg now : OdomGravityAlignNode μ α).Windowed ∧
      (initial cfg now : OdomGravityAlignNode μ α).Spaced := by
    constructor
    · simp [OdomGravityAlignNode.Windowed, initial, publications]
    · simp [OdomGravityAlignNode.Spaced, initial, resetMoments]
  rw [and_iff_right hstart, and_assoc] at hpromises
  rw [← hpromises]
  constructor
  · rintro ⟨hwindowed, hspaced, hdelivers⟩
    exact ⟨hwindowed, hspaced, hdelivers⟩
  · rintro ⟨hwindowed, hspaced, hdelivers⟩
    exact ⟨hwindowed, hspaced, hdelivers⟩

/-- The clock is set back by ten seconds after the first frame, and the next one two seconds
later does not go out. -/
def setBack : List (Label Unit Unit) :=
  let clear : Variances := ⟨0, 0, 0, 0, 0, 0⟩
  [.capture clear (), .odomCb 0, .timerCb true, .stepClock (-10000000000), .elapse 2000000000,
    .capture clear (), .odomCb 0, .timerCb true]

set_option maxRecDepth 4000 in
theorem not_robust_setBack :
    ¬ Robust (fun _ _ => ()) (initial {} ⟨0, 1700000000000000000⟩) setBack := by
  intro hrobust
  have hdelivers := hrobust.delivers.2.2.2.2.2.2.2.1
  revert hdelivers
  decide +kernel

end AcflyRos.Odometry

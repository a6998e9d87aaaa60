import AcflyRos.Foundation.Transition
import AcflyRos.TimeSync.Window

/-! # The odometry for the flight controller

`OdomGravityAlignNode` (`acfly_odometry_node.cpp`) next to the clocks: a timer takes the
latest frame of the sensor, watches its covariance, asks the sensor to reset when it stays
degraded, and publishes it. The node reads the system clock, which is the monotonic clock
plus a shift that other nodes change; the sensor stamps its frames with the same clock.
Callbacks run one at a time and take no time themselves. `double` values are exact rationals,
and what a frame says about the motion, with the attitude of the flight controller, is left
open: `align` builds the outgoing motion from them.
-/

namespace AcflyRos.Odometry

open TimeSync

universe u v

/-- A time on both clocks. -/
structure Moment where
  monotonic : Int
  /-- By how much the system clock is ahead of the monotonic clock. -/
  shift : Int
  deriving DecidableEq, Repr

/-- `now()`. -/
def Moment.system (moment : Moment) : Int := moment.monotonic + moment.shift

structure Config where
  odomFrame : String := "map"
  childFrame : String := "base_link"
  attitudeAlignmentSec : ℚ := 5
  covCheckEnabled : Bool := true
  covPosThreshold : ℚ := 1 / 4
  covAttThresholdDeg2 : ℚ := 1
  covDegradeBound : Int := 10
  resetCooldownSec : ℚ := 2
  deriving DecidableEq, Repr

/-- The diagonal of the pose covariance: entries 0, 7 and 14 in m², 21, 28 and 35 in rad². -/
structure Variances where
  x : ℚ
  y : ℚ
  z : ℚ
  rotX : ℚ
  rotY : ℚ
  rotZ : ℚ
  deriving DecidableEq, Repr

/-- The value of the `double` `(180.0 / M_PI) * (180.0 / M_PI)`. -/
def rad2ToDeg2 : ℚ := 1804741876787401 / 549755813888

namespace Variances

def maxPosCov (variances : Variances) : ℚ := max (max variances.x variances.y) variances.z

def maxAttCovDeg2 (variances : Variances) : ℚ :=
  max (max variances.rotX variances.rotY) variances.rotZ * rad2ToDeg2

end Variances

/-- A frame of the sensor, `nav_msgs::msg::Odometry` on `/odin1/odometry_highfreq`. -/
structure Frame (μ : Type u) where
  captured : Moment
  variances : Variances
  motion : μ
  deriving DecidableEq, Repr

/-- The stamp in the header. -/
def Frame.stamp {μ : Type u} (frame : Frame μ) : Int := frame.captured.system

/-- `nav_msgs::msg::Odometry` on `/mavros/odometry/out`. -/
structure Aligned (μ : Type u) where
  stamp : Int
  frameId : String
  childFrameId : String
  variances : Variances
  motion : μ
  deriving DecidableEq, Repr

/-- `acfly_odometry::msg::CovDiag`. -/
structure CovDiag where
  stamp : Int
  maxPosCov : ℚ
  maxAttCovDeg2 : ℚ
  degradeCnt : Int
  degradeBound : Int
  resetTriggered : Bool
  deriving DecidableEq, Repr

inductive Event (μ : Type u) (α : Type v) where
  | covDiag (diag : CovDiag)
  /-- `set algo_reset 1` is in `/tmp/odin_command.txt`. -/
  | resetCommand
  /-- The command file could not be opened. -/
  | openFailed
  /-- A frame is sent on, and with it the transform between the two coordinate frames. -/
  | published (odom : Frame μ) (aligned : Aligned μ) (att : Option α) (used : Option α)
  deriving DecidableEq, Repr

/-- An event and when it happens. -/
structure Entry (μ : Type u) (α : Type v) where
  moment : Moment
  event : Event μ α
  deriving DecidableEq, Repr

structure OdomGravityAlignNode (μ : Type u) (α : Type v) where
  cfg : Config
  latestOdom : Option (Frame μ) := none
  latestAtt : Option α := none
  lastPublishedStamp : Int := 0
  nodeStartTime : Int
  lastResetTime : Int := 0
  /-- An `int` of the source, with which it agrees as long as the count stays below 2^31. -/
  covDegradeCnt : Int := 0
  now : Moment
  started : Moment
  /-- Frames captured and not delivered. -/
  inTransit : List (Frame μ) := []
  /-- Newest first. -/
  log : List (Entry μ α) := []
  deriving DecidableEq, Repr

namespace OdomGravityAlignNode

variable {μ : Type u} {α : Type v} (node : OdomGravityAlignNode μ α)

def record (event : Event μ α) : OdomGravityAlignNode μ α :=
  { node with log := ⟨node.now, event⟩ :: node.log }

/-! ## The covariance of a frame -/

section Covariance

variable (opens : Bool) (odom : Frame μ)

def Degraded : Prop :=
  node.cfg.covPosThreshold < odom.variances.maxPosCov ∨
    node.cfg.covAttThresholdDeg2 < odom.variances.maxAttCovDeg2

instance : Decidable (node.Degraded odom) := inferInstanceAs (Decidable (_ ∨ _))

/-- `cov_degrade_cnt_` with the frame counted. -/
def countFrame : Int :=
  if node.Degraded odom then node.covDegradeCnt + 1
  else if 0 < node.covDegradeCnt then node.covDegradeCnt - 1
  else node.covDegradeCnt

/-- The bound is exceeded and the cooldown over. -/
def AsksReset : Prop :=
  node.cfg.covDegradeBound < node.countFrame odom ∧
    node.cfg.resetCooldownSec < seconds (node.now.system - node.lastResetTime)

instance : Decidable (node.AsksReset odom) := inferInstanceAs (Decidable (_ ∧ _))

/-- The covariance check of `timer_cb`, and the diagnosis of the frame. -/
def checkCovariance : OdomGravityAlignNode μ α :=
  let diag : CovDiag :=
    { stamp := odom.stamp
      maxPosCov := odom.variances.maxPosCov
      maxAttCovDeg2 := odom.variances.maxAttCovDeg2
      degradeCnt := node.covDegradeCnt
      degradeBound := node.cfg.covDegradeBound
      resetTriggered := false }
  if node.cfg.covCheckEnabled then
    let counted := { node with covDegradeCnt := node.countFrame odom }
    let diag := { diag with degradeCnt := node.countFrame odom }
    if node.AsksReset odom then
      if opens then
        { counted.record .resetCommand with
          covDegradeCnt := 0
          lastResetTime := node.now.system }.record
            (.covDiag { diag with degradeCnt := 0, resetTriggered := true })
      else (counted.record .openFailed).record (.covDiag diag)
    else counted.record (.covDiag diag)
  else node.record (.covDiag diag)

end Covariance

/-! ## Callbacks -/

def odomCb (msg : Frame μ) : OdomGravityAlignNode μ α := { node with latestOdom := some msg }

def attCb (msg : α) : OdomGravityAlignNode μ α := { node with latestAtt := some msg }

section Timer

variable (align : μ → Option α → μ) (opens : Bool)

/-- The frame goes out, aligned. -/
def publishAligned (odom : Frame μ) : OdomGravityAlignNode μ α :=
  let elapsed := seconds (node.now.system - node.nodeStartTime)
  let used := if elapsed < node.cfg.attitudeAlignmentSec then node.latestAtt else none
  let aligned : Aligned μ :=
    { stamp := odom.stamp
      frameId := node.cfg.odomFrame
      childFrameId := node.cfg.childFrame
      variances := odom.variances
      motion := align odom.motion used }
  { node with lastPublishedStamp := odom.stamp }.record
    (.published odom aligned node.latestAtt used)

def timerCb : OdomGravityAlignNode μ α :=
  match node.latestOdom with
  | none => node
  | some odom =>
      if odom.stamp ≤ node.lastPublishedStamp then node
      else
        let node := node.checkCovariance opens odom
        if seconds (node.now.system - node.lastResetTime) ≤ 1 then node
        else node.publishAligned align odom

end Timer

end OdomGravityAlignNode

/-! ## What a tick does -/

/-- When the command was written, newest first. -/
def resetMoments {μ : Type u} {α : Type v} (log : List (Entry μ α)) : List Moment :=
  log.filterMap fun entry =>
    match entry.event with
    | .resetCommand => some entry.moment
    | _ => none

/-- A frame that was sent on. -/
structure Publication (μ : Type u) (α : Type v) where
  moment : Moment
  odom : Frame μ
  aligned : Aligned μ
  /-- The latest attitude of the flight controller. -/
  att : Option α
  /-- The attitude that went into the outgoing motion. -/
  used : Option α
  deriving DecidableEq, Repr

/-- Newest first. -/
def publications {μ : Type u} {α : Type v} (log : List (Entry μ α)) : List (Publication μ α) :=
  log.filterMap fun entry =>
    match entry.event with
    | .published odom aligned att used => some ⟨entry.moment, odom, aligned, att, used⟩
    | _ => none

namespace OdomGravityAlignNode

variable {μ : Type u} {α : Type v} (node : OdomGravityAlignNode μ α)

section Outcome

variable (opens : Bool) (odom : Frame μ)

/-- The frame passes the filter on stamps. -/
def IsNew : Prop := node.lastPublishedStamp < odom.stamp

instance : Decidable (node.IsNew odom) := inferInstanceAs (Decidable (_ < _))

/-- Within a second after a reset. -/
def Recovering : Prop := seconds (node.now.system - node.lastResetTime) ≤ 1

instance : Decidable node.Recovering := inferInstanceAs (Decidable (_ ≤ _))

/-- The frame makes the node write the command. -/
def Resets : Prop := node.cfg.covCheckEnabled = true ∧ node.AsksReset odom ∧ opens = true

instance : Decidable (node.Resets opens odom) := inferInstanceAs (Decidable (_ ∧ _))

theorem checkCovariance_of_resets (hresets : node.Resets opens odom) :
    ∃ diag, node.checkCovariance opens odom =
      { node with
        covDegradeCnt := 0
        lastResetTime := node.now.system
        log := ⟨node.now, .covDiag diag⟩ :: ⟨node.now, .resetCommand⟩ :: node.log } := by
  obtain ⟨henabled, hasks, rfl⟩ := hresets
  simp only [checkCovariance, henabled, hasks, if_true, record]
  exact ⟨_, rfl⟩

theorem checkCovariance_of_not_resets (hresets : ¬ node.Resets opens odom) :
    ∃ cnt log, node.checkCovariance opens odom = { node with covDegradeCnt := cnt, log := log } ∧
      resetMoments log = resetMoments node.log ∧ publications log = publications node.log := by
  unfold checkCovariance
  split
  next henabled =>
    dsimp only
    split
    next hasks =>
      have hopens : ¬ opens = true := fun hopens => hresets ⟨henabled, hasks, hopens⟩
      rw [if_neg hopens]
      exact ⟨_, _, rfl, rfl, rfl⟩
    next => exact ⟨_, _, rfl, rfl, rfl⟩
  next => exact ⟨_, _, rfl, rfl, rfl⟩

/-- The tick sends the frame on. -/
def Sends : Prop := node.IsNew odom ∧ ¬ node.Resets opens odom ∧ ¬ node.Recovering

instance : Decidable (node.Sends opens odom) := inferInstanceAs (Decidable (_ ∧ _))

/-- What goes out of the tick. -/
inductive Outcome (align : μ → Option α → μ) (opens : Bool) (node : OdomGravityAlignNode μ α) :
    OdomGravityAlignNode μ α → Prop
  | idle (hnone : ∀ odom ∈ node.latestOdom, ¬ node.IsNew odom) : Outcome align opens node node
  | resets (odom : Frame μ) (diag : CovDiag) (hodom : node.latestOdom = some odom)
      (hnew : node.IsNew odom) (hresets : node.Resets opens odom) :
      Outcome align opens node
        { node with
          covDegradeCnt := 0
          lastResetTime := node.now.system
          log := ⟨node.now, .covDiag diag⟩ :: ⟨node.now, .resetCommand⟩ :: node.log }
  | withheld (odom : Frame μ) (cnt : Int) (log : List (Entry μ α))
      (hodom : node.latestOdom = some odom) (hnew : node.IsNew odom)
      (hresets : ¬ node.Resets opens odom) (hrecovering : node.Recovering)
      (hmoments : resetMoments log = resetMoments node.log)
      (hpublications : publications log = publications node.log) :
      Outcome align opens node { node with covDegradeCnt := cnt, log := log }
  | sends (odom : Frame μ) (cnt : Int) (log : List (Entry μ α))
      (hodom : node.latestOdom = some odom) (hsends : node.Sends opens odom)
      (hmoments : resetMoments log = resetMoments node.log)
      (hpublications : publications log = publications node.log) :
      Outcome align opens node
        ({ node with covDegradeCnt := cnt, log := log }.publishAligned align odom)

theorem timerCb_outcome (align : μ → Option α → μ) :
    Outcome align opens node (node.timerCb align opens) := by
  unfold timerCb
  cases hodom : node.latestOdom with
  | none => exact .idle (by simp [hodom])
  | some odom =>
      dsimp only
      split
      next hold => exact .idle (by simp [hodom, IsNew, hold])
      next hnew =>
        have hnew : node.IsNew odom := not_le.mp hnew
        by_cases hresets : node.Resets opens odom
        · obtain ⟨diag, hchecked⟩ := node.checkCovariance_of_resets opens odom hresets
          -- The silence begins with the reset itself.
          have hzero : seconds 0 ≤ 1 := by simp [seconds]
          simp only [hchecked, sub_self, hzero, if_true]
          exact .resets odom diag hodom hnew hresets
        · obtain ⟨cnt, log, hchecked, hmoments, hpublications⟩ :=
            node.checkCovariance_of_not_resets opens odom hresets
          simp only [hchecked]
          split
          next hrecovering =>
            exact .withheld odom cnt log hodom hnew hresets hrecovering hmoments hpublications
          next hrecovered =>
            exact .sends odom cnt log hodom ⟨hnew, hresets, hrecovered⟩ hmoments hpublications

end Outcome

end OdomGravityAlignNode

/-! ## Runs -/

inductive Label (μ : Type u) (α : Type v) where
  | elapse (ns : Nat)
  /-- The system clock is set, by any node. -/
  | stepClock (offset : Int)
  | capture (variances : Variances) (motion : μ)
  /-- One of the frames in transit arrives. -/
  | odomCb (index : Nat)
  | attCb (att : α)
  /-- Whether the command file can be opened. -/
  | timerCb (opens : Bool)
  deriving DecidableEq, Repr

section Steps

variable {μ : Type u} {α : Type v} (align : μ → Option α → μ)

def step (node : OdomGravityAlignNode μ α) : Label μ α → OdomGravityAlignNode μ α
  | .elapse ns => { node with now := { node.now with monotonic := node.now.monotonic + ns } }
  | .stepClock offset => { node with now := { node.now with shift := node.now.shift + offset } }
  | .capture variances motion =>
      { node with inTransit := ⟨node.now, variances, motion⟩ :: node.inTransit }
  | .odomCb index =>
      match node.inTransit[index]? with
      | none => node
      | some frame => { node with inTransit := node.inTransit.eraseIdx index }.odomCb frame
  | .attCb att => node.attCb att
  | .timerCb opens => node.timerCb align opens

/-- The constructor. -/
def initial (cfg : Config) (now : Moment) : OdomGravityAlignNode μ α :=
  { cfg, now, started := now, nodeStartTime := now.system }

end Steps

end AcflyRos.Odometry

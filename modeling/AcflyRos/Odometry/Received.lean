import AcflyRos.Odometry.Node

/-! # Frames by the order of their arrival

Every frame that reaches the node gets a number, and everything the node logs gets the
number of the frame that was cached then. The filter of `timer_cb` forgets a frame only when
it has been sent on. During the second after a reset none is, and every tick looks at the
cached frame again.
-/

namespace AcflyRos.Odometry

open AcflyRos.Transition TimeSync

universe u v

variable {μ : Type u} {α : Type v}

/-! ## What a tick logs -/

namespace OdomGravityAlignNode

variable (node : OdomGravityAlignNode μ α)

/-- What a tick logs, newest first, and whether it goes on to count the cached frame as sent. -/
inductive Logs (opens : Bool) (node : OdomGravityAlignNode μ α) :
    List (Event μ α) → OdomGravityAlignNode μ α → Prop
  | idle (hnone : ∀ odom ∈ node.latestOdom, ¬ node.IsNew odom) : Logs opens node [] node
  | resets (odom : Frame μ) (diag : CovDiag) (after : OdomGravityAlignNode μ α)
      (hodom : node.latestOdom = some odom) (hnew : node.IsNew odom)
      (hresets : node.Resets opens odom) (hcached : after.latestOdom = some odom)
      (hstamp : after.lastPublishedStamp = node.lastPublishedStamp) :
      Logs opens node [.covDiag diag, .resetCommand] after
  | withheld (odom : Frame μ) (diag : CovDiag) (failed : List (Event μ α))
      (after : OdomGravityAlignNode μ α)
      (hodom : node.latestOdom = some odom) (hnew : node.IsNew odom)
      (hresets : ¬ node.Resets opens odom) (hrecovering : node.Recovering)
      (hfailed : failed = [] ∨ failed = [.openFailed]) (hcached : after.latestOdom = some odom)
      (hstamp : after.lastPublishedStamp = node.lastPublishedStamp) :
      Logs opens node (.covDiag diag :: failed) after
  | sends (odom : Frame μ) (aligned : Aligned μ) (att used : Option α) (diag : CovDiag)
      (failed : List (Event μ α)) (after : OdomGravityAlignNode μ α)
      (hodom : node.latestOdom = some odom) (hsends : node.Sends opens odom)
      (hfailed : failed = [] ∨ failed = [.openFailed]) (hcached : after.latestOdom = some odom)
      (hstamp : after.lastPublishedStamp = odom.stamp) :
      Logs opens node (.published odom aligned att used :: .covDiag diag :: failed) after

theorem checkCovariance_log {opens : Bool} {odom : Frame μ}
    (hresets : ¬ node.Resets opens odom) :
    ∃ cnt diag failed, (failed = [] ∨ failed = [.openFailed]) ∧
      node.checkCovariance opens odom =
        { node with
          covDegradeCnt := cnt
          log := (Event.covDiag diag :: failed).map (⟨node.now, ·⟩) ++ node.log } := by
  unfold checkCovariance
  split
  next henabled =>
    dsimp only
    split
    next hasks =>
      have hopens : ¬ opens = true := fun hopens => hresets ⟨henabled, hasks, hopens⟩
      rw [if_neg hopens]
      exact ⟨_, _, [.openFailed], Or.inr rfl, rfl⟩
    next => exact ⟨_, _, [], Or.inl rfl, rfl⟩
  next => exact ⟨_, _, [], Or.inl rfl, rfl⟩

theorem timerCb_logs (align : μ → Option α → μ) (opens : Bool) :
    ∃ added, Logs opens node added (node.timerCb align opens) ∧
      (node.timerCb align opens).log = added.map (⟨node.now, ·⟩) ++ node.log := by
  unfold timerCb
  cases hodom : node.latestOdom with
  | none => exact ⟨[], .idle (by simp [hodom]), rfl⟩
  | some odom =>
      dsimp only
      split
      next hold => exact ⟨[], .idle (by simp [hodom, IsNew, hold]), rfl⟩
      next hnew =>
        have hnew : node.IsNew odom := not_le.mp hnew
        by_cases hresets : node.Resets opens odom
        · obtain ⟨diag, hchecked⟩ := node.checkCovariance_of_resets opens odom hresets
          have hzero : seconds 0 ≤ 1 := by simp [seconds]
          simp only [hchecked, sub_self, hzero, if_true]
          exact ⟨_, .resets odom diag _ hodom hnew hresets hodom rfl, rfl⟩
        · obtain ⟨cnt, diag, failed, hfailed, hchecked⟩ := node.checkCovariance_log hresets
          simp only [hchecked]
          split
          next hrecovering =>
            exact ⟨_, .withheld odom diag failed _ hodom hnew hresets hrecovering hfailed hodom
              rfl, rfl⟩
          next hrecovered =>
            exact ⟨_, .sends odom _ _ _ diag failed _ hodom ⟨hnew, hresets, hrecovered⟩ hfailed
              hodom rfl, rfl⟩

end OdomGravityAlignNode

/-! ## Numbers -/

/-- The node, and the frames that have reached it. -/
structure Numbered (μ : Type u) (α : Type v) where
  node : OdomGravityAlignNode μ α
  /-- How many there have been. The cached one is the last. -/
  received : Nat := 0
  /-- The events of the log, newest first, with the frame that was cached then. -/
  events : List (Nat × Event μ α) := []
  /-- The frames at which `cov_degrade_cnt_` has changed, newest first. -/
  counted : List Nat := []
  /-- The last tick has looked at the cached frame without sending it on. -/
  withheld : Bool := false
  deriving DecidableEq, Repr

namespace Numbered

/-- Which frames the messages on `cov_diag` were about, newest first. -/
def diagnosed (numbered : Numbered μ α) : List Nat :=
  numbered.events.filterMap fun event =>
    match event.2 with
    | .covDiag _ => some event.1
    | _ => none

section Steps

variable (align : μ → Option α → μ)

def timerCb (opens : Bool) (numbered : Numbered μ α) : Numbered μ α :=
  let node := numbered.node
  let after := node.timerCb align opens
  let added := after.log.take (after.log.length - node.log.length)
  { node := after
    received := numbered.received
    events := added.map (fun entry => (numbered.received, entry.event)) ++ numbered.events
    counted :=
      if after.covDegradeCnt = node.covDegradeCnt then numbered.counted
      else numbered.received :: numbered.counted
    withheld := decide (∃ odom ∈ node.latestOdom, node.IsNew odom ∧ ¬ node.Sends opens odom) }

def step (numbered : Numbered μ α) : Label μ α → Numbered μ α
  | .timerCb opens => numbered.timerCb align opens
  | .odomCb index =>
      if index < numbered.node.inTransit.length then
        { numbered with
          node := Odometry.step align numbered.node (.odomCb index)
          received := numbered.received + 1
          withheld := false }
      else numbered
  | label => { numbered with node := Odometry.step align numbered.node label }

end Steps

def initial (cfg : Config) (now : Moment) : Numbered μ α := { node := Odometry.initial cfg now }

/-- The numbers are kept beside the node, which takes the same steps. -/
theorem run_node (align : μ → Option α → μ) (labels : List (Label μ α))
    (numbered : Numbered μ α) : (run (step align) numbered labels).node =
      run (Odometry.step align) numbered.node labels := by
  apply run_project (Odometry.step align) (step align) Numbered.node
  intro other label
  cases label with
  | odomCb index =>
      simp only [step]
      split
      next => rfl
      next hnone => simp [Odometry.step, List.getElem?_eq_none (not_lt.mp hnone)]
  | _ => rfl

/-- What a tick logs is about the frame that is cached. -/
theorem timerCb_logs (numbered : Numbered μ α) (align : μ → Option α → μ) (opens : Bool) :
    ∃ added, OdomGravityAlignNode.Logs opens numbered.node added
        (numbered.timerCb align opens).node ∧
      (numbered.timerCb align opens).events =
        added.map (fun event => (numbered.received, event)) ++ numbered.events := by
  obtain ⟨added, hlogs, hlog⟩ := numbered.node.timerCb_logs align opens
  refine ⟨added, hlogs, ?_⟩
  simp [timerCb, hlog, List.map_map, Function.comp_def]

/-- A tick looks at the cached frame. -/
def Looks (numbered : Numbered μ α) : Prop :=
  ∃ odom ∈ numbered.node.latestOdom, numbered.node.IsNew odom

instance (numbered : Numbered μ α) : Decidable numbered.Looks :=
  inferInstanceAs (Decidable (∃ odom ∈ numbered.node.latestOdom, _))

/-! ## Once for each frame -/

/-- No frame has changed the counter or been diagnosed twice. -/
structure PerFrame (numbered : Numbered μ α) : Prop where
  diagnosed : numbered.diagnosed.Nodup
  counted : numbered.counted.Nodup

instance (numbered : Numbered μ α) : Decidable numbered.PerFrame :=
  decidable_of_iff (numbered.diagnosed.Nodup ∧ numbered.counted.Nodup)
    ⟨fun h => ⟨h.1, h.2⟩, fun h => ⟨h.diagnosed, h.counted⟩⟩

/-- No tick follows one that withheld its frame before another frame has arrived. -/
def Replaced (numbered : Numbered μ α) : Label μ α → Prop
  | .timerCb _ => numbered.withheld = false
  | _ => True

/-- A frame that has been looked at is new to the filter exactly if it was withheld. -/
structure Watched (numbered : Numbered μ α) : Prop where
  bound : ∀ number ∈ numbered.diagnosed, number ≤ numbered.received
  counted : numbered.counted.Sublist numbered.diagnosed
  withheld : numbered.withheld = true → numbered.received ∈ numbered.diagnosed ∧ numbered.Looks
  done : numbered.withheld = false → numbered.received ∈ numbered.diagnosed → ¬ numbered.Looks

theorem diagnosed_timerCb (numbered : Numbered μ α) (align : μ → Option α → μ) (opens : Bool) :
    (numbered.timerCb align opens).diagnosed =
      if numbered.Looks then numbered.received :: numbered.diagnosed else numbered.diagnosed := by
  obtain ⟨added, hlogs, hevents⟩ := numbered.timerCb_logs align opens
  have hdiagnosed : (numbered.timerCb align opens).diagnosed =
      (added.map fun event => (numbered.received, event)).filterMap (fun event =>
        match event.2 with
        | .covDiag _ => some event.1
        | _ => none) ++ numbered.diagnosed := by
    unfold diagnosed
    rw [hevents, List.filterMap_append]
  rw [hdiagnosed]
  generalize (numbered.timerCb align opens).node = after at hlogs
  cases hlogs with
  | idle hnone =>
      have hidle : ¬ numbered.Looks := fun ⟨odom, hodom, hnew⟩ => hnone odom hodom hnew
      simp [hidle]
  | resets odom diag _ hodom hnew =>
      have hlooks : numbered.Looks := ⟨odom, hodom, hnew⟩
      simp [hlooks]
  | withheld odom diag failed _ hodom hnew _ _ hfailed =>
      have hlooks : numbered.Looks := ⟨odom, hodom, hnew⟩
      rcases hfailed with rfl | rfl <;> simp [hlooks]
  | sends odom aligned att used diag failed _ hodom hsends hfailed =>
      have hlooks : numbered.Looks := ⟨odom, hodom, hsends.1⟩
      rcases hfailed with rfl | rfl <;> simp [hlooks]

section Watched

variable {numbered : Numbered μ α} (align : μ → Option α → μ) (opens : Bool)

theorem timerCb_of_idle (hidle : ¬ numbered.Looks) :
    numbered.node.timerCb align opens = numbered.node := by
  obtain ⟨added, hlogs, _⟩ := numbered.node.timerCb_logs align opens
  generalize numbered.node.timerCb align opens = after at hlogs
  cases hlogs with
  | idle => rfl
  | resets odom diag _ hodom hnew => exact absurd ⟨odom, hodom, hnew⟩ hidle
  | withheld odom diag failed _ hodom hnew => exact absurd ⟨odom, hodom, hnew⟩ hidle
  | sends odom aligned att used diag failed _ hodom hsends =>
      exact absurd ⟨odom, hodom, hsends.1⟩ hidle

/-- The filter forgets the frame only if it has been sent on. -/
theorem looks_timerCb :
    (numbered.timerCb align opens).Looks ↔ (numbered.timerCb align opens).withheld = true := by
  obtain ⟨added, hlogs, _⟩ := numbered.timerCb_logs align opens
  have hwithheld : (numbered.timerCb align opens).withheld = true ↔
      ∃ odom ∈ numbered.node.latestOdom,
        numbered.node.IsNew odom ∧ ¬ numbered.node.Sends opens odom := decide_eq_true_iff
  rw [hwithheld]
  unfold Looks
  generalize (numbered.timerCb align opens).node = after at hlogs
  cases hlogs with
  | idle hnone =>
      constructor
      · exact fun ⟨odom, hodom, hnew⟩ => absurd hnew (hnone odom hodom)
      · exact fun ⟨odom, hodom, hnew, _⟩ => absurd hnew (hnone odom hodom)
  | resets odom diag _ hodom hnew hresets hcached hstamp =>
      have hnotSends : ¬ numbered.node.Sends opens odom := fun hsends => hsends.2.1 hresets
      simp only [hodom, hcached, Option.mem_some_iff, exists_eq_left', hnew, hnotSends]
      simpa [OdomGravityAlignNode.IsNew, hstamp] using hnew
  | withheld odom diag failed _ hodom hnew _ hrecovering _ hcached hstamp =>
      have hnotSends : ¬ numbered.node.Sends opens odom := fun hsends => hsends.2.2 hrecovering
      simp only [hodom, hcached, Option.mem_some_iff, exists_eq_left', hnew, hnotSends]
      simpa [OdomGravityAlignNode.IsNew, hstamp] using hnew
  | sends odom aligned att used diag failed _ hodom hsends _ hcached hstamp =>
      simp [hodom, hcached, OdomGravityAlignNode.IsNew, hstamp, hsends]

theorem perFrame_iff (h : Watched numbered) : numbered.PerFrame ↔ numbered.diagnosed.Nodup :=
  ⟨PerFrame.diagnosed, fun hnodup => ⟨hnodup, h.counted.nodup hnodup⟩⟩

theorem Watched.timerCb (h : Watched numbered) : Watched (numbered.timerCb align opens) where
  bound := by
    intro number hnumber
    rw [diagnosed_timerCb] at hnumber
    split at hnumber
    next =>
      rcases List.mem_cons.mp hnumber with rfl | hold
      · exact le_refl _
      · exact h.bound number hold
    next => exact h.bound number hnumber
  counted := by
    rw [diagnosed_timerCb]
    by_cases hlooks : numbered.Looks
    · rw [if_pos hlooks]
      unfold Numbered.timerCb
      dsimp only
      split
      · exact h.counted.cons _
      · exact h.counted.cons_cons _
    · rw [if_neg hlooks]
      simpa [Numbered.timerCb, timerCb_of_idle align opens hlooks] using h.counted
  withheld := by
    intro hwithheld
    refine ⟨?_, (looks_timerCb align opens).mpr hwithheld⟩
    have hlooks : numbered.Looks := by
      obtain ⟨odom, hodom, hnew, _⟩ := of_decide_eq_true hwithheld
      exact ⟨odom, hodom, hnew⟩
    rw [diagnosed_timerCb, if_pos hlooks]
    exact List.mem_cons_self
  done := by
    intro hwithheld _ hlooks
    rw [(looks_timerCb align opens).mp hlooks] at hwithheld
    cases hwithheld

theorem Watched.step (h : Watched numbered) (label : Label μ α) :
    Watched (numbered.step align label) := by
  cases label with
  | timerCb opens => exact h.timerCb align opens
  | odomCb index =>
      simp only [Numbered.step]
      split
      next =>
        refine ⟨fun number hnumber => (h.bound number hnumber).trans (Nat.le_succ _), h.counted,
          Bool.noConfusion, fun _ hlast => ?_⟩
        -- The number of the new frame has not been used.
        exact absurd (h.bound _ hlast) (Nat.not_succ_le_self _)
      next => exact h
  | elapse ns => exact ⟨h.bound, h.counted, h.withheld, h.done⟩
  | stepClock offset => exact ⟨h.bound, h.counted, h.withheld, h.done⟩
  | capture variances motion => exact ⟨h.bound, h.counted, h.withheld, h.done⟩
  | attCb att => exact ⟨h.bound, h.counted, h.withheld, h.done⟩

theorem step_perFrame_iff (h : Watched numbered) (label : Label μ α) :
    (numbered.step align label).PerFrame ↔ numbered.PerFrame ∧ numbered.Replaced label := by
  rw [perFrame_iff (h.step align label), perFrame_iff h]
  cases label with
  | timerCb opens =>
      simp only [step, Replaced, diagnosed_timerCb]
      cases hwithheld : numbered.withheld with
      | true =>
          obtain ⟨hlast, hlooks⟩ := h.withheld hwithheld
          simp [hlooks, hlast]
      | false =>
          by_cases hlooks : numbered.Looks
          · have hlast : numbered.received ∉ numbered.diagnosed :=
              fun hlast => h.done hwithheld hlast hlooks
            simp [hlooks, hlast]
          · simp [hlooks]
  | odomCb index =>
      simp only [step, Replaced, and_true]
      split <;> exact Iff.rfl
  | _ => exact (and_iff_left trivial).symm

theorem watched_initial (cfg : Config) (now : Moment) :
    Watched (initial cfg now : Numbered μ α) where
  bound := by simp [initial, diagnosed]
  counted := by simp [initial, diagnosed]
  withheld := Bool.noConfusion
  done := by simp [initial, diagnosed]

end Watched

end Numbered

/-- A frame is counted and diagnosed once, for every frame of the run, exactly if none is still
cached at the tick after the one that withheld it. -/
theorem run_perFrame_iff (align : μ → Option α → μ) (cfg : Config) (now : Moment)
    (labels : List (Label μ α)) :
    (run (Numbered.step align) (Numbered.initial cfg now) labels).PerFrame ↔
      EveryStep (Numbered.step align) Numbered.Replaced (Numbered.initial cfg now) labels := by
  have hrun := run_holds_iff (Numbered.step align) Numbered.Watched Numbered.PerFrame
    (fun numbered label hwatched =>
      ⟨hwatched.step align label, Numbered.step_perFrame_iff align hwatched label⟩)
    labels (Numbered.watched_initial cfg now)
  rw [hrun]
  refine and_iff_right ⟨?_, ?_⟩
  · exact List.nodup_nil
  · exact List.nodup_nil

/-- Eleven frames with a variance of 1 m², after which the sensor is silent and another tick
follows. -/
def silenced (ns : Nat) : List (Label Unit Unit) :=
  let frame : List (Label Unit Unit) :=
    [.elapse 50000000, .capture ⟨1, 0, 0, 0, 0, 0⟩ (), .odomCb 0, .timerCb true]
  (List.replicate 11 frame).flatten ++ [.elapse ns, .timerCb true]

set_option maxRecDepth 8000 in
/-- The tick that follows 50 ms after the reset counts the last frame again. -/
theorem not_perFrame_silenced :
    ¬ ∀ (align : Unit → Option Unit → Unit) (cfg : Config) (now : Moment)
        (labels : List (Label Unit Unit)),
      (run (Numbered.step align) (Numbered.initial cfg now) labels).PerFrame := by
  intro hall
  have hframes := hall (fun _ _ => ()) {} ⟨0, 1700000000000000000⟩ (silenced 50000000)
  revert hframes
  decide +kernel

/-! ## After a reset -/

def Event.isReset : Event μ α → Bool
  | .resetCommand => true
  | _ => false

def Event.isPublished : Event μ α → Bool
  | .published _ _ _ _ => true
  | _ => false

namespace Numbered

/-- Whatever is sent on after a reset has arrived after that reset. -/
def NothingStale (numbered : Numbered μ α) : Prop :=
  numbered.events.Pairwise fun late early =>
    late.2.isPublished = true → early.2.isReset = true → early.1 < late.1

instance (numbered : Numbered μ α) : Decidable numbered.NothingStale :=
  inferInstanceAs (Decidable (numbered.events.Pairwise _))

/-- A frame has arrived since the last reset. -/
def Renewed (numbered : Numbered μ α) : Prop :=
  ∀ event ∈ numbered.events, event.2.isReset = true → event.1 < numbered.received

/-- A tick before a frame has arrived since the last reset is within a second of it, by the
system clock, or resets again. -/
def Renews (numbered : Numbered μ α) : Label μ α → Prop
  | .timerCb opens => numbered.Renewed ∨ numbered.node.Recovering ∨
      ∃ odom ∈ numbered.node.latestOdom, numbered.node.Resets opens odom
  | _ => True

/-- The filter takes the frame that has caused the last reset for a new one. -/
structure Remembered (numbered : Numbered μ α) : Prop where
  bound : ∀ event ∈ numbered.events, event.1 ≤ numbered.received
  cached : numbered.NothingStale → numbered.Renewed ∨ numbered.Looks

section Remembered

variable {numbered : Numbered μ α} (align : μ → Option α → μ) (opens : Bool)

theorem nothingStale_timerCb :
    (numbered.timerCb align opens).NothingStale ↔ numbered.NothingStale ∧
      ∀ odom ∈ numbered.node.latestOdom, numbered.node.Sends opens odom → numbered.Renewed := by
  obtain ⟨added, hlogs, hevents⟩ := numbered.timerCb_logs align opens
  unfold NothingStale Renewed
  rw [hevents]
  generalize (numbered.timerCb align opens).node = after at hlogs
  cases hlogs with
  | idle hnone =>
      exact (and_iff_left fun odom hodom hsends => absurd hsends.1 (hnone odom hodom)).symm
  | resets odom diag _ hodom _ hresets =>
      have hnotSends : ¬ numbered.node.Sends opens odom := fun hsends => hsends.2.1 hresets
      simp [Event.isPublished, hodom, hnotSends]
  | withheld odom diag failed _ hodom _ _ hrecovering hfailed =>
      have hnotSends : ¬ numbered.node.Sends opens odom := fun hsends => hsends.2.2 hrecovering
      rcases hfailed with rfl | rfl <;> simp [Event.isPublished, hodom, hnotSends]
  | sends odom aligned att used diag failed _ hodom hsends hfailed =>
      rcases hfailed with rfl | rfl <;>
        simp [Event.isPublished, Event.isReset, hodom, hsends, and_comm]

/-- The frame that is cached when the silence ends is sent on. -/
theorem renews_iff (h : Remembered numbered) (hstale : numbered.NothingStale) :
    (∀ odom ∈ numbered.node.latestOdom, numbered.node.Sends opens odom → numbered.Renewed) ↔
      numbered.Renews (.timerCb opens) := by
  constructor
  · intro hsends
    by_contra hnot
    simp only [Renews, not_or, not_exists, not_and] at hnot
    obtain ⟨hold, hrecovered, hresets⟩ := hnot
    obtain ⟨odom, hodom, hnew⟩ := (h.cached hstale).resolve_left hold
    exact hold (hsends odom hodom ⟨hnew, hresets odom hodom, hrecovered⟩)
  · rintro (hrenewed | hrecovering | ⟨odom, hodom, hresets⟩) other hother hsends
    · exact hrenewed
    · exact absurd hrecovering hsends.2.2
    · obtain rfl := Option.some_inj.mp (hodom.symm.trans hother)
      exact absurd hresets hsends.2.1

theorem Renewed.timerCb (h : numbered.Renewed)
    (hresets : ∀ odom ∈ numbered.node.latestOdom, ¬ numbered.node.Resets opens odom) :
    (numbered.timerCb align opens).Renewed := by
  obtain ⟨added, hlogs, hevents⟩ := numbered.timerCb_logs align opens
  have hreceived : (numbered.timerCb align opens).received = numbered.received := rfl
  unfold Renewed at *
  rw [hevents, hreceived]
  generalize (numbered.timerCb align opens).node = after at hlogs
  cases hlogs with
  | idle => simpa using h
  | resets odom diag _ hodom _ hresets' => exact absurd hresets' (hresets odom hodom)
  | withheld odom diag failed _ _ _ _ _ hfailed =>
      rcases hfailed with rfl | rfl <;> simpa [Event.isReset] using h
  | sends odom aligned att used diag failed _ _ _ hfailed =>
      rcases hfailed with rfl | rfl <;> simpa [Event.isReset] using h

theorem Remembered.timerCb (h : Remembered numbered) :
    Remembered (numbered.timerCb align opens) := by
  constructor
  · intro event hevent
    obtain ⟨added, _, hevents⟩ := numbered.timerCb_logs align opens
    rw [hevents, List.mem_append, List.mem_map] at hevent
    rcases hevent with ⟨_, _, rfl⟩ | hold
    · exact le_refl _
    · exact h.bound event hold
  · intro hstale
    obtain ⟨hbefore, hsent⟩ := (nothingStale_timerCb align opens).mp hstale
    by_cases hlooks : numbered.Looks
    · obtain ⟨odom, hodom, hnew⟩ := hlooks
      by_cases hsends : numbered.node.Sends opens odom
      · refine Or.inl ((hsent odom hodom hsends).timerCb align opens ?_)
        intro other hother
        obtain rfl := Option.some_inj.mp (hodom.symm.trans hother)
        exact hsends.2.1
      · -- A frame that is withheld stays new.
        exact Or.inr ((looks_timerCb align opens).mpr
          (decide_eq_true ⟨odom, hodom, hnew, hsends⟩))
    · have hrenewed := (h.cached hbefore).resolve_right hlooks
      have hsame : (numbered.timerCb align opens).events = numbered.events := by
        simp [Numbered.timerCb, timerCb_of_idle align opens hlooks]
      left
      unfold Renewed
      rw [hsame]
      exact hrenewed

theorem Remembered.step (h : Remembered numbered) (label : Label μ α) :
    Remembered (numbered.step align label) := by
  cases label with
  | timerCb opens => exact h.timerCb align opens
  | odomCb index =>
      simp only [Numbered.step]
      split
      next =>
        have hearlier : ∀ event ∈ numbered.events, event.1 < numbered.received + 1 :=
          fun event hevent => Nat.lt_succ_of_le (h.bound event hevent)
        exact ⟨fun event hevent => (hearlier event hevent).le,
          fun _ => Or.inl fun event hevent _ => hearlier event hevent⟩
      next => exact h
  | elapse ns => exact ⟨h.bound, h.cached⟩
  | stepClock offset => exact ⟨h.bound, h.cached⟩
  | capture variances motion => exact ⟨h.bound, h.cached⟩
  | attCb att => exact ⟨h.bound, h.cached⟩

theorem step_nothingStale_iff (h : Remembered numbered) (label : Label μ α) :
    (numbered.step align label).NothingStale ↔
      numbered.NothingStale ∧ numbered.Renews label := by
  cases label with
  | timerCb opens =>
      simp only [step, nothingStale_timerCb]
      exact and_congr_right fun hstale => renews_iff opens h hstale
  | odomCb index =>
      simp only [step, Renews, and_true]
      split <;> exact Iff.rfl
  | _ => exact (and_iff_left trivial).symm

end Remembered

end Numbered

/-- Nothing that arrived before a reset is sent on after it, exactly if the sensor delivers a
frame before the first tick that is more than a second after the reset. -/
theorem run_nothingStale_iff (align : μ → Option α → μ) (cfg : Config) (now : Moment)
    (labels : List (Label μ α)) :
    (run (Numbered.step align) (Numbered.initial cfg now) labels).NothingStale ↔
      EveryStep (Numbered.step align) Numbered.Renews (Numbered.initial cfg now) labels := by
  have hremembered : (Numbered.initial cfg now : Numbered μ α).Remembered :=
    ⟨by simp [Numbered.initial], fun _ => Or.inl (by simp [Numbered.Renewed, Numbered.initial])⟩
  have hrun := run_holds_iff (Numbered.step align) Numbered.Remembered Numbered.NothingStale
    (fun numbered label hremembered =>
      ⟨hremembered.step align label, Numbered.step_nothingStale_iff align hremembered label⟩)
    labels hremembered
  rw [hrun]
  exact and_iff_right List.Pairwise.nil

set_option maxRecDepth 8000 in
/-- The frame that has caused the reset is sent on by the tick 1.1 s later, although no clock
has been set. -/
theorem not_nothingStale_silenced :
    ¬ ∀ (align : Unit → Option Unit → Unit) (cfg : Config) (now : Moment)
        (labels : List (Label Unit Unit)),
      (∀ label ∈ labels, ∀ offset, label = .stepClock offset → 0 ≤ offset) →
        (run (Numbered.step align) (Numbered.initial cfg now) labels).NothingStale := by
  intro hall
  have hstale := hall (fun _ _ => ()) {} ⟨0, 1700000000000000000⟩ (silenced 1100000000)
    (by rintro label hlabel offset rfl; revert hlabel; simp [silenced])
  revert hstale
  decide +kernel

end AcflyRos.Odometry

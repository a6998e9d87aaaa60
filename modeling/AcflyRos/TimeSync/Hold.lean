import AcflyRos.Foundation.Transition
import AcflyRos.TimeSync.Node

/-! # When the node goes into hold

`monitor_cb` measures the silence of the GPS on the system clock, from a reading that
`time_ref_cb` takes before it may set that clock itself. The three ticks it waits for
make up for two monitor periods; when the clock is moved forward by more, the node
goes into hold although references keep coming.
-/

namespace AcflyRos.TimeSync

open AcflyRos.Transition

/-- Events that neither are a reference nor take the synchronisation back. -/
def Event.quiet : Event → Bool
  | .reference _ => false
  | .publishedSynced synced => synced
  | _ => true

def Event.isReference : Event → Bool
  | .reference _ => true
  | _ => false

/-- Readings of the monotonic and of the system clock at the last valid reference. -/
def lastReference (log : List Entry) : Option (Int × Int) :=
  log.findSome? fun entry =>
    match entry.event with
    | .reference system => some (entry.time, system)
    | _ => none

/-- What no handler of a reference touches. -/
def TimeSyncNode.frame (node : TimeSyncNode) : Config × Option Int × Nat × Int × Int :=
  (node.cfg, node.lastGpsTime, node.gpsLostCount, node.monotonic, node.nextTick)

/-- What handlers of a reference do as far as the time-out is concerned. -/
structure Handled (before after : TimeSyncNode) : Prop where
  frame : after.frame = before.frame
  state : after.state = before.state ∨ after.state = .tracking
  log : ∃ added, after.log = added ++ before.log ∧
    ∀ entry ∈ added, entry.time = before.monotonic ∧ entry.event.quiet = true

namespace Handled

variable {before after : TimeSyncNode}

theorem of_same (hframe : after.frame = before.frame) (hlog : after.log = before.log)
    (hstate : after.state = before.state ∨ after.state = .tracking) : Handled before after where
  frame := hframe
  state := hstate
  log := ⟨[], hlog, fun _ hentry => absurd hentry List.not_mem_nil⟩

theorem refl (node : TimeSyncNode) : Handled node node := of_same rfl rfl (Or.inl rfl)

theorem monotonic_eq (h : Handled before after) : after.monotonic = before.monotonic :=
  congrArg (fun frame => frame.2.2.2.1) h.frame

theorem trans {first second third : TimeSyncNode} (hfirst : Handled first second)
    (hsecond : Handled second third) : Handled first third where
  frame := hsecond.frame.trans hfirst.frame
  state := by
    rcases hsecond.state with hsame | htracking
    · rw [hsame]
      exact hfirst.state
    · exact Or.inr htracking
  log := by
    obtain ⟨early, hlog, hearly⟩ := hfirst.log
    obtain ⟨late, hlog', hlate⟩ := hsecond.log
    refine ⟨late ++ early, by rw [hlog', hlog, List.append_assoc], ?_⟩
    intro entry hentry
    rcases List.mem_append.mp hentry with hentry | hentry
    · rw [← hfirst.monotonic_eq]
      exact hlate entry hentry
    · exact hearly entry hentry

theorem record (node : TimeSyncNode) {event : Event} (hquiet : event.quiet = true) :
    Handled node (node.record event) where
  frame := rfl
  state := Or.inl rfl
  log := ⟨[⟨node.monotonic, event⟩], rfl, fun entry hentry => by
    rw [List.mem_singleton.mp hentry]
    exact ⟨rfl, hquiet⟩⟩

/-- Recording a quiet event is the last thing done. -/
theorem note {event : Event} (h : Handled before after) (hquiet : event.quiet = true) :
    Handled before (after.record event) :=
  h.trans (record after hquiet)

/-- Fields that the time-out does not see are the last thing changed. -/
theorem update {last : TimeSyncNode} (h : Handled before after) (hframe : last.frame = after.frame)
    (hlog : last.log = after.log) (hstate : last.state = after.state ∨ last.state = .tracking) :
    Handled before last :=
  h.trans (of_same hframe hlog hstate)

theorem doBootstrap (settimeFails : Bool) (node : TimeSyncNode) :
    Handled node (node.doBootstrap settimeFails).2 := by
  unfold TimeSyncNode.doBootstrap
  dsimp only
  split
  · exact refl node
  · split
    · exact record node rfl
    · refine ⟨rfl, Or.inl rfl, [⟨node.monotonic, .resetDiscipline⟩,
        ⟨node.monotonic, .settime (node.system + medianOffsetNs node.offsetWindow) true⟩], rfl, ?_⟩
      simp [Event.quiet]

theorem applySlew (offsetMs : ℚ) (h : Handled before after) :
    Handled before (after.applySlew offsetMs) := h.note rfl

theorem publishStatus (format : String) (values : List ℚ) (h : Handled before after) :
    Handled before (after.publishStatus format values) := h.note rfl

theorem enterTracking (h : Handled before after) :
    Handled before { after with state := .tracking, synced := true } :=
  h.update rfl rfl (Or.inr rfl)

variable (settimeFails : Bool) (smoothedMs : ℚ)

theorem handleInit (node : TimeSyncNode) : Handled node (node.handleInit settimeFails) := by
  have hset := doBootstrap settimeFails node
  unfold TimeSyncNode.handleInit
  split
  next after hboot =>
    rw [hboot] at hset
    exact hset
  next after hboot =>
    rw [hboot] at hset
    have hsynced : Handled node (TimeSyncNode.record _ (.publishedSynced true)) :=
      hset.enterTracking.note rfl
    apply Handled.publishStatus
    exact hsynced.update rfl rfl (Or.inl rfl)

theorem handleTracking (node : TimeSyncNode) :
    Handled node (node.handleTracking settimeFails smoothedMs) := by
  have hreset : Handled node { node with bootstrapTime := none } := of_same rfl rfl (Or.inl rfl)
  have hset := hreset.trans (doBootstrap settimeFails { node with bootstrapTime := none })
  unfold TimeSyncNode.handleTracking
  split
  next => exact (refl node).applySlew smoothedMs
  next =>
    dsimp only
    split
    next =>
      split
      next after hboot =>
        rw [hboot] at hset
        exact hset.applySlew smoothedMs
      next after hboot =>
        rw [hboot] at hset
        apply Handled.publishStatus
        exact hset.update rfl rfl (Or.inl rfl)
    next =>
      split
      · exact (hreset.applySlew smoothedMs).publishStatus _ _
      · exact hreset.applySlew smoothedMs

theorem handleHold (node : TimeSyncNode) :
    Handled node (node.handleHold settimeFails smoothedMs) := by
  have hset := doBootstrap settimeFails node
  apply Handled.publishStatus
  apply Handled.note _ rfl
  apply Handled.enterTracking
  split
  next =>
    split
    next after hboot =>
      rw [hboot] at hset
      exact hset.applySlew smoothedMs
    next after hboot =>
      rw [hboot] at hset
      exact hset.update rfl rfl (Or.inl rfl)
  next => exact (refl node).applySlew smoothedMs

/-- A valid reference is noted first; all that follows is handling. -/
theorem timeRefCb (settimeFails : Bool) {node : TimeSyncNode} {msg : TimeReference}
    (haccepted : node.accepts msg) :
    Handled (node.takeReference msg) (node.timeRefCb settimeFails msg) := by
  unfold TimeSyncNode.timeRefCb
  rw [if_neg (not_not_intro haccepted)]
  apply Handled.note _ rfl
  split
  · exact handleInit settimeFails _
  · exact handleTracking settimeFails _ _
  · exact handleHold settimeFails _ _
  · exact refl _

end Handled

/-! ## The last reference -/

theorem lastReference_append {added log : List Entry}
    (hadded : ∀ entry ∈ added, entry.event.isReference = false) :
    lastReference (added ++ log) = lastReference log := by
  induction added with
  | nil => rfl
  | cons entry rest ih =>
      have hrest := ih fun later hlater => hadded later (List.mem_cons_of_mem _ hlater)
      have hhead := hadded entry List.mem_cons_self
      unfold lastReference at hrest ⊢
      rw [List.cons_append, List.findSome?_cons]
      cases hevent : entry.event <;> simp_all [Event.isReference]

theorem not_isReference_of_quiet {event : Event} (hquiet : event.quiet = true) :
    event.isReference = false := by
  cases event <;> simp_all [Event.quiet, Event.isReference]

/-! ## What the lost-count says about the monotonic clock -/

/-- A count of `n` means that the first tick to find the time-out exceeded came at most two
periods too early, and that `n` periods have begun since. -/
structure Timed (node : TimeSyncNode) : Prop where
  state : node.state ≠ .bootstrap
  last : node.lastGpsTime = (lastReference node.log).map Prod.snd
  newest : ∀ entry ∈ node.log, entry.event.isReference = true →
    ∃ heard system, lastReference node.log = some (heard, system) ∧ entry.time ≤ heard
  past : ∀ entry ∈ node.log, entry.time ≤ node.monotonic
  due : node.monotonic ≤ node.nextTick
  counted : ∀ heard system, lastReference node.log = some (heard, system) →
    0 < node.gpsLostCount → node.cfg.gpsTimeoutSec <
      seconds (node.nextTick - heard + (2 - node.gpsLostCount) * monitorPeriod)

namespace Timed

variable {node after : TimeSyncNode}

/-- The events added are no references. -/
theorem of_added (h : Timed node) (hframe : after.frame = node.frame)
    (hstate : after.state ≠ .bootstrap) {added : List Entry} (hlog : after.log = added ++ node.log)
    (hadded : ∀ entry ∈ added, entry.time = node.monotonic ∧ entry.event.isReference = false) :
    Timed after := by
  have hlast : lastReference after.log = lastReference node.log := by
    rw [hlog]
    exact lastReference_append fun entry hentry => (hadded entry hentry).2
  simp only [TimeSyncNode.frame, Prod.mk.injEq] at hframe
  obtain ⟨hcfg, hlastGps, hcount, hmonotonic, hnext⟩ := hframe
  constructor
  · exact hstate
  · rw [hlastGps, hlast]
    exact h.last
  · intro entry hentry hreference
    rw [hlast]
    rw [hlog] at hentry
    rcases List.mem_append.mp hentry with hnew | hold
    · rw [(hadded entry hnew).2] at hreference
      cases hreference
    · exact h.newest entry hold hreference
  · intro entry hentry
    rw [hmonotonic]
    rw [hlog] at hentry
    rcases List.mem_append.mp hentry with hnew | hold
    · exact (hadded entry hnew).1.le
    · exact h.past entry hold
  · rw [hmonotonic, hnext]
    exact h.due
  · rw [hlast, hcfg, hnext, hcount]
    exact h.counted

theorem of_handled (h : Timed node) (hhandled : Handled node after) : Timed after := by
  obtain ⟨added, hlog, hadded⟩ := hhandled.log
  refine h.of_added hhandled.frame ?_ hlog fun entry hentry => ?_
  · rcases hhandled.state with hsame | htracking
    · rw [hsame]
      exact h.state
    · rw [htracking]
      exact State.noConfusion
  · exact ⟨(hadded entry hentry).1, not_isReference_of_quiet (hadded entry hentry).2⟩

theorem advance (h : Timed node) (wait : Nat) : Timed (node.advance wait) where
  state := h.state
  last := h.last
  newest := h.newest
  past := by
    intro entry hentry
    have hpast := h.past entry hentry
    have hdue := h.due
    show entry.time ≤ min (node.monotonic + wait) node.nextTick
    omega
  due := min_le_right _ _
  counted := h.counted

theorem takeReference (h : Timed node) (msg : TimeReference) : Timed (node.takeReference msg) where
  state := h.state
  last := rfl
  newest := by
    intro entry hentry _
    refine ⟨node.monotonic, node.system, rfl, ?_⟩
    rcases List.mem_cons.mp hentry with rfl | hold
    · exact le_refl _
    · exact h.past entry hold
  past := by
    intro entry hentry
    rcases List.mem_cons.mp hentry with rfl | hold
    · exact le_refl _
    · exact h.past entry hold
  due := h.due
  counted := fun _ _ _ hpositive => absurd hpositive (Nat.lt_irrefl 0)

theorem tick (h : Timed node) : Timed node.tick where
  state := h.state
  last := h.last
  newest := h.newest
  past := fun entry hentry => (h.past entry hentry).trans h.due
  due := by
    show node.nextTick ≤ node.nextTick + monitorPeriod
    unfold monitorPeriod
    omega
  counted := by
    intro heard system hlast hpositive
    apply lt_of_lt_of_le (h.counted heard system hlast hpositive)
    apply seconds_mono
    show _ ≤ node.nextTick + monitorPeriod - heard + (2 - node.gpsLostCount) * monitorPeriod
    unfold monitorPeriod
    omega

/-- Another tick has found the time-out exceeded. -/
theorem count (h : Timed node) {heard system : Int}
    (hlast : lastReference node.log = some (heard, system))
    (hexceeded : node.cfg.gpsTimeoutSec <
      seconds (node.nextTick - heard + (2 - node.gpsLostCount) * monitorPeriod)) :
    Timed { node.tick with gpsLostCount := node.gpsLostCount + 1 } where
  state := h.state
  last := h.last
  newest := h.newest
  past := h.tick.past
  due := h.tick.due
  counted := by
    intro heard' system' hlast' _
    have hsame : some (heard', system') = some (heard, system) := hlast'.symm.trans hlast
    cases hsame
    apply lt_of_lt_of_le hexceeded
    apply seconds_mono
    show _ ≤ node.nextTick + monitorPeriod - heard +
      (2 - ((node.gpsLostCount + 1 : Nat) : Int)) * monitorPeriod
    push_cast
    unfold monitorPeriod
    omega

end Timed

/-! ## Steps -/

/-- When a tick measures more than the time-out, the system clock has gained at most two
monitor periods on the monotonic clock since the last valid reference. -/
def Steady (node : TimeSyncNode) (label : Label) : Prop :=
  label.request = .monitor → node.state = .tracking →
    ∀ reference ∈ lastReference node.log,
      node.cfg.gpsTimeoutSec < seconds (node.tick.system - reference.2) →
        node.shift - (reference.2 - reference.1) ≤ 2 * monitorPeriod

instance (node : TimeSyncNode) (label : Label) : Decidable (Steady node label) :=
  inferInstanceAs (Decidable (_ → _ → ∀ reference ∈ lastReference node.log, _ → _))

/-- The callback goes from tracking to hold, or publishes that the clock is not synchronised. -/
def EntersHold (node after : TimeSyncNode) : Prop :=
  (node.state = .tracking ∧ after.state = .hold) ∨
    ∃ added, after.log = added ++ node.log ∧
      ∃ entry ∈ added, entry.event = .publishedSynced false

/-- No valid reference has been processed for the time-out, on the monotonic clock. -/
def Silent (node : TimeSyncNode) : Prop :=
  ∀ entry ∈ node.log, entry.event.isReference = true →
    node.cfg.gpsTimeoutSec < seconds (node.monotonic - entry.time)

instance (node : TimeSyncNode) : Decidable (Silent node) :=
  inferInstanceAs (Decidable (∀ entry ∈ node.log, _ → _))

/-- The first tick over the time-out is early by what the clock has gained; later ones find
the count positive. -/
theorem Timed.exceeded {node : TimeSyncNode} (h : Timed node) {heard system : Int}
    (hlast : lastReference node.log = some (heard, system))
    (hover : node.cfg.gpsTimeoutSec < seconds (node.tick.system - system))
    (hgained : node.shift - (system - heard) ≤ 2 * monitorPeriod) :
    node.cfg.gpsTimeoutSec <
      seconds (node.nextTick - heard + (2 - node.gpsLostCount) * monitorPeriod) := by
  by_cases hfirst : node.gpsLostCount = 0
  · -- The gain is all by which the first tick can be early.
    apply lt_of_lt_of_le hover
    apply seconds_mono
    show node.nextTick + node.shift - system ≤ _
    rw [hfirst]
    push_cast
    omega
  · exact h.counted heard system hlast (Nat.pos_of_ne_zero hfirst)

theorem not_entersHold {node after : TimeSyncNode} {added : List Entry}
    (hlog : after.log = added ++ node.log)
    (hadded : ∀ entry ∈ added, entry.event ≠ .publishedSynced false)
    (hstate : after.state = node.state ∨ after.state = .tracking) : ¬ EntersHold node after := by
  rintro (⟨htracking, hhold⟩ | ⟨added', hlog', entry, hentry, hevent⟩)
  · rw [htracking, or_self, hhold] at hstate
    cases hstate
  · rw [hlog] at hlog'
    rw [← List.append_cancel_right hlog'] at hentry
    exact hadded entry hentry hevent

theorem ne_of_quiet {event : Event} (hquiet : event.quiet = true) :
    event ≠ .publishedSynced false := by
  rintro rfl
  cases hquiet

/-- What a handler does after a piece of work that has noted no loss. -/
theorem Handled.not_entersHold {node middle after : TimeSyncNode} (h : Handled middle after)
    {early : List Entry} (hlog : middle.log = early ++ node.log)
    (hearly : ∀ entry ∈ early, entry.event ≠ .publishedSynced false)
    (hstate : middle.state = node.state) : ¬ EntersHold node after := by
  obtain ⟨added, hlog', hadded⟩ := h.log
  rw [hlog, ← List.append_assoc] at hlog'
  apply TimeSync.not_entersHold hlog'
  · intro entry hentry
    rcases List.mem_append.mp hentry with hnew | hold
    · exact ne_of_quiet (hadded entry hnew).2
    · exact hearly entry hold
  · rw [← hstate]
    exact h.state

namespace TimeSyncNode

/-- The rest of `monitor_cb` only prints. -/
theorem monitorCb_cases (node : TimeSyncNode) :
    node.monitorCb = node ∨
      ∃ last, node.lastGpsTime = some last ∧ node.state ≠ .init ∧ node.state ≠ .hold ∧
        Handled (node.checkGps last) node.monitorCb := by
  unfold monitorCb
  split
  next => exact Or.inl rfl
  next hstate =>
    rw [not_or] at hstate
    split
    next => exact Or.inl rfl
    next last hlast =>
      refine Or.inr ⟨last, hlast, hstate.1, hstate.2, ?_⟩
      dsimp only
      split
      · exact (Handled.record (node.checkGps last) rfl).update rfl rfl (Or.inl rfl)
      · exact Handled.refl _

/-- The third count is reached. -/
structure Lost (node after : TimeSyncNode) : Prop where
  third : 3 ≤ node.gpsLostCount + 1
  frame : after.frame = { node with gpsLostCount := node.gpsLostCount + 1 }.frame
  state : after.state = .hold
  log : ∃ added, after.log = added ++ node.log ∧
    ∀ entry ∈ added, entry.time = node.monotonic ∧ entry.event.isReference = false

theorem checkGps_cases (node : TimeSyncNode) (last : Int) :
    node.checkGps last = node ∨
      (node.cfg.gpsTimeoutSec < seconds (node.system - last) ∧
        (node.checkGps last = { node with gpsLostCount := node.gpsLostCount + 1 } ∨
          Lost node (node.checkGps last))) := by
  unfold checkGps
  by_cases hover : node.cfg.gpsTimeoutSec < seconds (node.system - last)
  · rw [if_pos hover]
    refine Or.inr ⟨hover, ?_⟩
    by_cases hthird : 3 ≤ node.gpsLostCount + 1 ∧ node.state = .tracking
    · rw [if_pos hthird]
      refine Or.inr ⟨hthird.1, rfl, rfl,
        [⟨node.monotonic, .publishedStatus "HOLD: GPS lost, holding last freq" []⟩,
          ⟨node.monotonic, .publishedSynced false⟩], rfl, ?_⟩
      simp [Event.isReference]
    · exact Or.inl (if_neg hthird)
  · exact Or.inl (if_neg hover)

end TimeSyncNode

/-- At the third count the silence has lasted. -/
theorem Timed.lost {node checked after : TimeSyncNode} (h : Timed node) {heard system : Int}
    (hlast : lastReference node.log = some (heard, system))
    (hexceeded : node.cfg.gpsTimeoutSec <
      seconds (node.nextTick - heard + (2 - node.gpsLostCount) * monitorPeriod))
    (hlost : TimeSyncNode.Lost node.tick checked) (hprinted : Handled checked after) :
    Timed after ∧ Silent after := by
  obtain ⟨early, hearly, hquiet⟩ := hlost.log
  obtain ⟨late, hlate, hquiet'⟩ := hprinted.log
  have hheld : checked.state ≠ .bootstrap := by
    rw [hlost.state]
    exact State.noConfusion
  constructor
  · exact ((h.count hlast hexceeded).of_added hlost.frame hheld hearly hquiet).of_handled hprinted
  · intro entry hentry hreference
    -- Neither what is printed nor the loss itself is a reference.
    have hold : entry ∈ node.log := by
      rw [hlate, hearly, List.mem_append, List.mem_append] at hentry
      rcases hentry with hnew | hnew | hold
      · rw [not_isReference_of_quiet (hquiet' entry hnew).2] at hreference
        cases hreference
      · rw [(hquiet entry hnew).2] at hreference
        cases hreference
      · exact hold
    have hframe := hprinted.frame.trans hlost.frame
    simp only [TimeSyncNode.frame, Prod.mk.injEq] at hframe
    obtain ⟨heard', system', hlast', hle⟩ := h.newest entry hold hreference
    rw [hlast] at hlast'
    cases hlast'
    have hthird : 3 ≤ node.gpsLostCount + 1 := hlost.third
    rw [hframe.1, hframe.2.2.2.1]
    apply lt_of_lt_of_le hexceeded
    apply seconds_mono
    show _ ≤ node.nextTick - entry.time
    unfold monitorPeriod
    omega

/-- A tick keeps the account, and goes into hold on silence only. -/
theorem Timed.monitor {node : TimeSyncNode} {label : Label} (h : Timed node)
    (hrequest : label.request = .monitor) (hsteady : Steady node label) :
    Timed node.tick.monitorCb ∧
      (EntersHold node node.tick.monitorCb → Silent node.tick.monitorCb) := by
  have hnothing : ∀ entry ∈ ([] : List Entry), entry.event ≠ .publishedSynced false :=
    fun _ hentry => absurd hentry List.not_mem_nil
  rcases node.tick.monitorCb_cases with hidle | ⟨last, hlast, hinit, hhold, hprinted⟩
  · rw [hidle]
    exact ⟨h.tick, fun henters => absurd henters (not_entersHold rfl hnothing (Or.inl rfl))⟩
  have htracking : node.state = .tracking := by
    have hbootstrap := h.state
    cases hstate : node.state with
    | init => exact absurd hstate hinit
    | bootstrap => exact absurd hstate hbootstrap
    | tracking => rfl
    | hold => exact absurd hstate hhold
  have hreference : ∃ heard, lastReference node.log = some (heard, last) := by
    have hlast' := h.last.symm.trans hlast
    obtain ⟨⟨heard, system⟩, hreference, rfl⟩ := Option.map_eq_some_iff.mp hlast'
    exact ⟨heard, hreference⟩
  obtain ⟨heard, hreference⟩ := hreference
  rcases node.tick.checkGps_cases last with hsame | ⟨hover, hcounted⟩
  · rw [hsame] at hprinted
    exact ⟨h.tick.of_handled hprinted,
      fun henters => absurd henters (hprinted.not_entersHold rfl hnothing rfl)⟩
  have hexceeded := h.exceeded hreference hover (hsteady hrequest htracking _ hreference hover)
  rcases hcounted with hcounted | hlost
  · rw [hcounted] at hprinted
    exact ⟨(h.count hreference hexceeded).of_handled hprinted,
      fun henters => absurd henters (hprinted.not_entersHold rfl hnothing rfl)⟩
  · obtain ⟨htimed, hsilent⟩ := h.lost hreference hexceeded hlost hprinted
    exact ⟨htimed, fun _ => hsilent⟩

theorem Timed.timeReference {node : TimeSyncNode} (h : Timed node) (settimeFails : Bool)
    (wait : Nat) (msg : TimeReference) :
    Timed ((node.advance wait).timeRefCb settimeFails msg) ∧
      ¬ EntersHold node ((node.advance wait).timeRefCb settimeFails msg) := by
  by_cases haccepted : (node.advance wait).accepts msg
  · have hhandled := Handled.timeRefCb settimeFails haccepted
    constructor
    · exact ((h.advance wait).takeReference msg).of_handled hhandled
    · have hlog : ((node.advance wait).takeReference msg).log =
          [⟨(node.advance wait).monotonic, .reference (node.advance wait).system⟩] ++ node.log :=
        rfl
      apply hhandled.not_entersHold hlog _ rfl
      simp
  · have hrejected : (node.advance wait).timeRefCb settimeFails msg = node.advance wait :=
      if_pos haccepted
    rw [hrejected]
    exact ⟨h.advance wait, not_entersHold (List.nil_append _).symm (by simp) (Or.inl rfl)⟩

theorem Timed.step {node : TimeSyncNode} {label : Label} (h : Timed node)
    (hsteady : Steady node label) :
    Timed (step node label) ∧ (EntersHold node (step node label) → Silent (step node label)) := by
  unfold TimeSync.step
  split
  next msg _ =>
    obtain ⟨htimed, hnot⟩ := h.timeReference label.settimeFails label.wait msg
    exact ⟨htimed, fun henters => absurd henters hnot⟩
  next rtt _ =>
    have hreceived : Handled (node.advance label.wait) ((node.advance label.wait).tsyncCb rtt) :=
      Handled.of_same rfl rfl (Or.inl rfl)
    constructor
    · exact (h.advance label.wait).of_handled hreceived
    · intro henters
      apply absurd henters
      exact hreceived.not_entersHold (List.nil_append _).symm (by simp) rfl
  next hrequest => exact h.monitor hrequest hsteady

theorem timed_initial (cfg : Config) (monotonic system : Int) :
    Timed (initial cfg monotonic system) where
  state := State.noConfusion
  last := rfl
  newest := by simp [initial, TimeSyncNode.publishStatus, TimeSyncNode.record, Event.isReference]
  past := by simp [initial, TimeSyncNode.publishStatus, TimeSyncNode.record]
  due := by
    show monotonic ≤ monotonic + monitorPeriod
    unfold monitorPeriod
    omega
  counted := by
    intro _ _ _ hpositive
    cases hpositive

/-- In every run in which no tick measures a time-out that a forward step of the clock by more
than two periods has brought forward. -/
theorem run_entersHold_silent (cfg : Config) (monotonic system : Int) (labels : List Label)
    (label : Label) (hlabels : EveryStep step Steady (initial cfg monotonic system) labels)
    (hlabel : Steady (run step (initial cfg monotonic system) labels) label) :
    EntersHold (run step (initial cfg monotonic system) labels)
        (step (run step (initial cfg monotonic system) labels) label) →
      Silent (step (run step (initial cfg monotonic system) labels) label) := by
  have htimed := run_keeps step Timed (fun _ _ h hsteady => (h.step hsteady).1)
    (timed_initial cfg monotonic system) hlabels
  exact (htimed.step hlabel).2

/-- One reference, and then ticks only. -/
def fix (stamp time : Stamp) (ticks : Nat) : List Label :=
  ⟨.timeReference ⟨stamp, time⟩, 0, false⟩ :: List.replicate ticks ⟨.monitor, 0, false⟩

/-- The clock is 150 ms behind, and is set. -/
theorem silent_fix :
    Silent (step (run step (initial { gpsTimeoutSec := 3 / 10 } 0 1789999999850000000)
      (fix ⟨1789999999, 850000000⟩ ⟨1790000000, 0⟩ 3)) ⟨.monitor, 0, false⟩) :=
  run_entersHold_silent { gpsTimeoutSec := 3 / 10 } 0 1789999999850000000
    (fix ⟨1789999999, 850000000⟩ ⟨1790000000, 0⟩ 3) ⟨.monitor, 0, false⟩
    ⟨by decide +kernel, by decide +kernel, by decide +kernel, by decide +kernel, trivial⟩
    (by decide +kernel) (Or.inl (by decide +kernel))

/-- After a start without a clock battery the clock is set forward by decades, and the node goes
into hold 300 ms later. -/
theorem not_silent_fix :
    ¬ ∀ (cfg : Config) (monotonic system : Int) (labels : List Label) (label : Label),
      EntersHold (run step (initial cfg monotonic system) labels)
          (step (run step (initial cfg monotonic system) labels) label) →
        Silent (step (run step (initial cfg monotonic system) labels) label) := by
  intro hall
  have hsilent := hall {} 0 0 (fix ⟨0, 0⟩ ⟨1790000000, 0⟩ 2) ⟨.monitor, 0, false⟩
    (Or.inl (by decide +kernel))
  exact absurd hsilent (by decide +kernel)

end AcflyRos.TimeSync

import AcflyRos.Foundation.Transition
import AcflyRos.TimeSync.Jumps

/-! # The cooldown between two jumps

After a jump `bootstrap_time_` starts the cooldown. Tracking waits for it, and the first
jump of all needs no cooldown; a reference that ends a hold may set the clock at once.
-/

namespace AcflyRos.TimeSync

open AcflyRos.Transition

/-- Any two jumps are the cooldown apart, on the monotonic clock. -/
def Spaced (node : TimeSyncNode) : Prop :=
  (jumpTimes node.log).Pairwise fun late early =>
    node.cfg.postBootstrapGraceSec ≤ seconds (late - early)

instance (node : TimeSyncNode) : Decidable (Spaced node) :=
  inferInstanceAs (Decidable (List.Pairwise _ _))

/-- A reference that ends a hold sets the clock only after the cooldown. -/
def Cooled (node : TimeSyncNode) (label : Label) : Prop :=
  ∀ msg, label.request = .timeReference msg → node.state = .hold →
    (node.advance label.wait).Jumps label.settimeFails msg → ¬ (node.advance label.wait).InGrace

/-- `bootstrap_time_` is the time of the last jump, until the cooldown has passed. -/
structure Dated (node : TimeSyncNode) : Prop where
  due : node.monotonic ≤ node.nextTick
  past : ∀ time ∈ jumpTimes node.log, time ≤ node.monotonic
  ordered : (jumpTimes node.log).Pairwise fun late early => early ≤ late
  first : node.state = .init → jumpTimes node.log = []
  set : ∀ start ∈ node.bootstrapTime,
    ∃ earlier, jumpTimes node.log = (start - node.shift) :: earlier
  unset : node.bootstrapTime = none → ∀ time ∈ jumpTimes node.log,
    node.cfg.postBootstrapGraceSec ≤ seconds (node.monotonic - time)

namespace Dated

variable {node after : TimeSyncNode}

/-- Whether the cooldown has passed since every jump can be read off `bootstrap_time_`. -/
theorem not_inGrace_iff (h : Dated node) :
    ¬ node.InGrace ↔ ∀ time ∈ jumpTimes node.log,
      node.cfg.postBootstrapGraceSec ≤ seconds (node.monotonic - time) := by
  unfold TimeSyncNode.InGrace
  cases htime : node.bootstrapTime with
  | none =>
      have hpassed := h.unset htime
      simpa using hpassed
  | some start =>
      obtain ⟨earlier, hjumps⟩ := h.set start htime
      have hordered := h.ordered
      -- Since the last jump both clocks have run alike.
      have hsystem : node.system - start = node.monotonic - (start - node.shift) := by
        unfold TimeSyncNode.system
        omega
      rw [hjumps, List.pairwise_cons] at hordered
      rw [hjumps]
      simp only [Option.mem_some_iff, exists_eq_left', not_lt, hsystem, List.mem_cons,
        forall_eq_or_imp]
      constructor
      · intro hnewest
        refine ⟨hnewest, fun time htime => hnewest.trans (seconds_mono ?_)⟩
        have hle := hordered.1 time htime
        omega
      · exact And.left

/-- Time passes. -/
theorem elapse (h : Dated node) (monotonic nextTick : Int) (hle : node.monotonic ≤ monotonic)
    (hdue : monotonic ≤ nextTick) : Dated { node with monotonic, nextTick } where
  due := hdue
  past := fun time htime => (h.past time htime).trans hle
  ordered := h.ordered
  first := h.first
  set := h.set
  unset := by
    intro hnone time htime
    apply (h.unset hnone time htime).trans
    apply seconds_mono
    show node.monotonic - time ≤ monotonic - time
    omega

theorem advance (h : Dated node) (wait : Nat) : Dated (node.advance wait) := by
  apply h.elapse _ node.nextTick _ (min_le_right _ _)
  have hdue := h.due
  omega

theorem tick (h : Dated node) : Dated node.tick := by
  apply h.elapse _ _ h.due
  unfold monitorPeriod
  omega

theorem takeReference (h : Dated node) (msg : TimeReference) : Dated (node.takeReference msg) :=
  ⟨h.due, h.past, h.ordered, h.first, h.set, h.unset⟩

theorem of_stays (h : Dated node) (hstays : Stays node after) : Dated after := by
  constructor
  · rw [hstays.monotonic, hstays.nextTick]
    exact h.due
  · rw [hstays.monotonic, hstays.jumpTimes]
    exact h.past
  · rw [hstays.jumpTimes]
    exact h.ordered
  · rw [hstays.jumpTimes]
    exact fun hinit => h.first (hstays.state hinit)
  · rw [hstays.jumpTimes, hstays.shift]
    rcases hstays.bootstrapTime with hsame | ⟨hnone, _⟩
    · rw [hsame]
      exact h.set
    · simp [hnone]
  · rw [hstays.jumpTimes, hstays.cfg, hstays.monotonic]
    intro hunset
    -- The cooldown is forgotten in a callback that finds it over.
    rcases hstays.bootstrapTime with hsame | ⟨_, hover⟩
    · exact h.unset (hsame.symm.trans hunset)
    · exact h.not_inGrace_iff.mp hover

theorem of_sets (h : Dated node) (hsets : Sets node after) : Dated after where
  due := by
    rw [hsets.monotonic, hsets.nextTick]
    exact h.due
  past := by
    rw [hsets.jumpTimes, hsets.monotonic, List.forall_mem_cons]
    exact ⟨le_refl _, h.past⟩
  ordered := by
    rw [hsets.jumpTimes]
    exact h.ordered.cons h.past
  first := fun hinit => absurd hinit hsets.left
  set := by
    simp only [hsets.bootstrapTime, Option.mem_some_iff, forall_eq']
    refine ⟨jumpTimes node.log, ?_⟩
    rw [hsets.jumpTimes, ← hsets.monotonic]
    congr 1
    unfold TimeSyncNode.system
    omega
  unset := by simp [hsets.bootstrapTime]

end Dated

/-! ## Steps -/

theorem spaced_of_stays {node after : TimeSyncNode} (hstays : Stays node after) :
    Spaced after ↔ Spaced node := by
  unfold Spaced
  rw [hstays.cfg, hstays.jumpTimes]

/-- A jump keeps its distance if and only if the cooldown has passed. -/
theorem Dated.spaced_of_sets {node after : TimeSyncNode} (h : Dated node)
    (hsets : Sets node after) : Spaced after ↔ Spaced node ∧ ¬ node.InGrace := by
  unfold Spaced
  rw [hsets.cfg, hsets.jumpTimes, List.pairwise_cons, h.not_inGrace_iff]
  exact and_comm

/-- Only a hold lets a reference jump within the cooldown. -/
theorem Dated.not_inGrace_of_jumps {node : TimeSyncNode} (h : Dated node) {settimeFails : Bool}
    {msg : TimeReference} (hjumps : node.Jumps settimeFails msg) (hhold : node.state ≠ .hold) :
    ¬ node.InGrace := by
  have hwants := hjumps.2.1
  unfold TimeSyncNode.WantsJump at hwants
  cases hstate : node.state with
  | init =>
      rw [h.not_inGrace_iff, h.first hstate]
      simp
  | bootstrap => simp [TimeSyncNode.takeReference, TimeSyncNode.record, hstate] at hwants
  | tracking =>
      simp only [TimeSyncNode.takeReference, TimeSyncNode.record, hstate] at hwants
      exact hwants.1
  | hold => exact absurd hstate hhold

theorem Dated.timeReference {node : TimeSyncNode} (h : Dated node) (settimeFails : Bool)
    (msg : TimeReference) :
    Dated (node.timeRefCb settimeFails msg) ∧
      (Spaced (node.timeRefCb settimeFails msg) ↔ Spaced node ∧
        (node.state = .hold → node.Jumps settimeFails msg → ¬ node.InGrace)) := by
  have htaken := h.takeReference msg
  by_cases haccepted : node.accepts msg
  · by_cases hjumps : node.Jumps settimeFails msg
    · have hsets := TimeSyncNode.timeRefCb_sets hjumps
      refine ⟨htaken.of_sets hsets, (htaken.spaced_of_sets hsets).trans ?_⟩
      apply and_congr Iff.rfl
      constructor
      · exact fun hover _ _ => hover
      · intro hcooled
        by_cases hhold : node.state = .hold
        · exact hcooled hhold hjumps
        · exact h.not_inGrace_of_jumps hjumps hhold
    · have hstays := TimeSyncNode.timeRefCb_stays haccepted hjumps
      refine ⟨htaken.of_stays hstays, (spaced_of_stays hstays).trans ?_⟩
      simp only [hjumps, false_imp_iff, imp_true_iff, and_true]
      exact Iff.rfl
  · have hrejected : node.timeRefCb settimeFails msg = node := if_pos haccepted
    have hjumps : ¬ node.Jumps settimeFails msg := fun hjumps => haccepted hjumps.1
    rw [hrejected]
    exact ⟨h, by simp [hjumps]⟩

theorem Dated.step {node : TimeSyncNode} (h : Dated node) (label : Label) :
    Dated (step node label) ∧ (Spaced (step node label) ↔ Spaced node ∧ Cooled node label) := by
  unfold TimeSync.step Cooled
  split
  next msg hrequest =>
    obtain ⟨hdated, hspaced⟩ := (h.advance label.wait).timeReference label.settimeFails msg
    refine ⟨hdated, hspaced.trans (and_congr Iff.rfl ?_)⟩
    simp [hrequest, TimeSyncNode.advance]
  next rtt hrequest =>
    have hreceived := h.advance label.wait
    refine ⟨⟨hreceived.due, hreceived.past, hreceived.ordered, hreceived.first, hreceived.set,
      hreceived.unset⟩, ?_⟩
    simp [hrequest, Spaced, TimeSyncNode.tsyncCb, TimeSyncNode.advance]
  next hrequest =>
    have hstays := TimeSyncNode.monitorCb_stays node.tick
    refine ⟨h.tick.of_stays hstays, (spaced_of_stays hstays).trans ?_⟩
    simp [hrequest, Spaced, TimeSyncNode.tick]

theorem dated_initial (cfg : Config) (monotonic system : Int) :
    Dated (initial cfg monotonic system) where
  due := by
    show monotonic ≤ monotonic + monitorPeriod
    unfold monitorPeriod
    omega
  past := by simp [initial, TimeSyncNode.publishStatus, TimeSyncNode.record, jumpTimes]
  ordered := by simp [initial, TimeSyncNode.publishStatus, TimeSyncNode.record, jumpTimes]
  first := fun _ => rfl
  set := by simp [initial, TimeSyncNode.publishStatus, TimeSyncNode.record]
  unset := by simp [initial, TimeSyncNode.publishStatus, TimeSyncNode.record, jumpTimes]

/-- A run spaces its jumps if and only if every end of a hold does. -/
theorem run_spaced_iff (cfg : Config) (monotonic system : Int) (labels : List Label) :
    Spaced (run step (initial cfg monotonic system) labels) ↔
      EveryStep step Cooled (initial cfg monotonic system) labels := by
  rw [run_holds_iff step Dated Spaced (fun _ label h => h.step label) labels
    (dated_initial cfg monotonic system)]
  apply and_iff_right
  exact List.Pairwise.nil

/-- The first reference sets the clock forward by decades, so that three ticks later the node is
in hold; ten milliseconds after the third, the GPS time is 600 ms ahead again. -/
def restoredFix : List Label :=
  [⟨.timeReference ⟨⟨0, 0⟩, ⟨1790000000, 0⟩⟩, 0, false⟩, ⟨.monitor, 0, false⟩,
    ⟨.monitor, 0, false⟩, ⟨.monitor, 0, false⟩,
    ⟨.timeReference ⟨⟨1790000000, 310000000⟩, ⟨1790000000, 910000000⟩⟩, 10000000, false⟩]

theorem not_spaced_restoredFix :
    ¬ ∀ (cfg : Config) (monotonic system : Int) (labels : List Label),
      Spaced (run step (initial cfg monotonic system) labels) := by
  intro hall
  exact absurd (hall {} 0 0 restoredFix) (by decide +kernel)

end AcflyRos.TimeSync

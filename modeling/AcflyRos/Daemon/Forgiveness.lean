import AcflyRos.Foundation.Gaps
import AcflyRos.Daemon.GivingUp

/-! # Forgiving the failures

The count of health failures is dropped when a message is recent and odin1_driver was started
long enough ago, whether or not it was silent in between. If messages never come late while
failures are counted, the stream has flowed since the start.
-/

namespace AcflyRos.Daemon

open AcflyRos.Transition AcflyRos.Gaps

/-- A message reaches `odin_health_cb`. -/
def Delivers (world : World) (label : Label) : Prop :=
  label.request = .odometry ∧ world.mode = .up ∧ world.odometry ≠ []

instance (world : World) (label : Label) : Decidable (Delivers world label) :=
  inferInstanceAs (Decidable (_ ∧ _ ∧ _))

/-- When the callback of the label first reads the monotonic clock. -/
def arrivalTime (world : World) (label : Label) : Int := (world.entered label).interact.steady

/-- A supervisor, and when messages have reached it. Newest first. -/
structure Listening where
  world : World
  arrivals : List Int := []
  deriving DecidableEq, Repr

namespace Listening

def step (listening : Listening) (label : Label) : Listening where
  world := Daemon.step listening.world label
  arrivals :=
    if Delivers listening.world label then
      arrivalTime listening.world label :: listening.arrivals
    else listening.arrivals

/-- The arrivals are kept beside the supervisor, which takes the same steps. -/
theorem run_world (labels : List Label) (listening : Listening) :
    (run step listening labels).world = run Daemon.step listening.world labels :=
  run_project Daemon.step step Listening.world (fun _ _ => rfl) listening labels

/-- While failures are counted, no message comes late, after the one before or after the start
of odin1_driver. -/
def OnTime (listening : Listening) (label : Label) : Prop :=
  Delivers listening.world label → 0 < listening.world.odinHealthFailCount →
    arrivalTime listening.world label -
      max listening.world.odinRunningSteady listening.world.odinLastMsgSteady ≤
        listening.world.config.odinHealthTimeoutSec

instance (listening : Listening) (label : Label) : Decidable (listening.OnTime label) :=
  inferInstanceAs (Decidable (_ → _ → _))

/-- When the check drops the count, messages have kept coming for as long as it asks. -/
def Sustained (listening : Listening) (label : Label) : Prop :=
  ∀ checked, Checks listening.world label checked → Resets listening.world label →
    Flows listening.world.config.odinHealthTimeoutSec listening.arrivals
      (checked.interact.steady - listening.world.config.odinHealthResetUptimeSec)
      checked.interact.steady

/-- What is known of the stream while failures are counted. -/
structure Followed (listening : Listening) : Prop where
  lastMsg : listening.world.odinHealthArmed = true ∨ 0 < listening.world.odinHealthFailCount →
    listening.world.odinLastMsgSteady ≤ listening.world.steady
  heard : 0 < listening.world.odinHealthFailCount → listening.world.odinHealthArmed = true →
    listening.world.odinLastMsgSteady ∈ listening.arrivals ∧
      Flows listening.world.config.odinHealthTimeoutSec listening.arrivals
        listening.world.odinRunningSteady listening.world.odinLastMsgSteady
  unheard : 0 < listening.world.odinHealthFailCount → listening.world.odinHealthArmed = false →
    listening.world.odinLastMsgSteady ≤ listening.world.odinRunningSteady ∨
      listening.world.config.odinHealthTimeoutSec <
        listening.world.steady - listening.world.odinLastMsgSteady

variable {listening : Listening} {label : Label}

/-- A message that comes in time continues the stream, or begins it. -/
theorem Followed.delivered (h : Followed listening) (hontime : listening.OnTime label)
    (hdelivers : Delivers listening.world label)
    (hcount : 0 < listening.world.odinHealthFailCount) :
    Flows listening.world.config.odinHealthTimeoutSec
      (arrivalTime listening.world label :: listening.arrivals)
      listening.world.odinRunningSteady (arrivalTime listening.world label) := by
  have hlate := hontime hdelivers hcount
  rcases lt_or_ge listening.world.odinLastMsgSteady listening.world.odinRunningSteady with
    hrestarted | hsince
  · rw [max_eq_left hrestarted.le] at hlate
    exact flows_of_short hlate
  · rw [max_eq_right hsince] at hlate
    cases harmed : listening.world.odinHealthArmed with
    | true =>
        obtain ⟨hmem, hflows⟩ := h.heard hcount harmed
        exact (hflows.extend hmem hlate).of_subset (List.subset_cons_self _ _)
    | false =>
        rcases h.unheard hcount harmed with hrestarted | hstalled
        · have hsame : listening.world.odinLastMsgSteady = listening.world.odinRunningSteady :=
            le_antisymm hrestarted hsince
          exact flows_of_short (hsame ▸ hlate)
        · -- After a stall the next message is late.
          have hpast : listening.world.steady ≤ arrivalTime listening.world label :=
            ((listening.world.entered_carries label).trans (World.interact_carries _)).steady
          omega

theorem Followed.of_carries {next : Listening} (h : Followed listening)
    (hcarries : Carries listening.world next.world)
    (hconfig : next.world.config = listening.world.config)
    (harrivals : next.arrivals = listening.arrivals) : Followed next where
  lastMsg hcounted := by
    rw [hcarries.lastMsg]
    rw [hcarries.failCount] at hcounted
    refine le_trans (h.lastMsg ?_) hcarries.steady
    rcases hcarries.start with ⟨harmed, _⟩ | ⟨hdisarmed, _⟩
    · rwa [harmed] at hcounted
    · exact Or.inr (hcounted.resolve_left (by simp [hdisarmed]))
  heard hcount harmed := by
    rw [hcarries.failCount] at hcount
    rcases hcarries.start with ⟨hsame, hrunning⟩ | ⟨hdisarmed, _⟩
    · rw [hcarries.lastMsg, hrunning, hconfig, harrivals]
      exact h.heard hcount (hsame ▸ harmed)
    · rw [hdisarmed] at harmed
      cases harmed
  unheard hcount harmed := by
    rw [hcarries.failCount] at hcount
    rw [hcarries.lastMsg, hconfig]
    rcases hcarries.start with ⟨hsame, hrunning⟩ | ⟨_, hstarted, _⟩
    · rw [hrunning]
      refine (h.unheard hcount (hsame ▸ harmed)).imp_right fun hstalled => ?_
      exact hstalled.trans_le (sub_le_sub_right hcarries.steady _)
    · exact Or.inl ((h.lastMsg (Or.inr hcount)).trans hstarted)

/-- With nothing counted, nothing is known. -/
theorem followed_of_none {world : World} (arrivals : List Int)
    (hcount : world.odinHealthFailCount = 0)
    (hlastMsg : world.odinHealthArmed = true → world.odinLastMsgSteady ≤ world.steady) :
    Followed { world, arrivals } where
  lastMsg hcounted := hlastMsg (hcounted.resolve_right (by simp [hcount]))
  heard hpositive := absurd hpositive (by simp [hcount])
  unheard hpositive := absurd hpositive (by simp [hcount])

theorem step_of_delivers (hdelivers : Delivers listening.world label) :
    ∃ serial rest, (listening.step label).world =
      World.odinHealthCb serial { listening.world.entered label with odometry := rest } := by
  obtain ⟨hrequest, hup, hqueue⟩ := hdelivers
  cases hmessages : listening.world.odometry with
  | nil => exact absurd hmessages hqueue
  | cons serial rest =>
      refine ⟨serial, rest, (if_pos hup).trans ?_⟩
      rw [hrequest]
      show deliver (listening.world.entered label) = _
      unfold deliver
      rw [show (listening.world.entered label).odometry = serial :: rest from hmessages]

theorem Followed.step_delivers (h : Followed listening) (hontime : listening.OnTime label)
    (hdelivers : Delivers listening.world label) : Followed (listening.step label) := by
  obtain ⟨serial, rest, hstep⟩ := step_of_delivers hdelivers
  have harrivals : (listening.step label).arrivals =
      arrivalTime listening.world label :: listening.arrivals := if_pos hdelivers
  have hlastMsg : (listening.step label).world.odinLastMsgSteady =
      arrivalTime listening.world label := by rw [hstep]; rfl
  refine ⟨fun _ => ?_, fun hcount _ => ?_, fun _ hdisarmed => ?_⟩
  · rw [hstep]
    exact le_rfl
  · rw [hlastMsg, harrivals]
    refine ⟨List.mem_cons_self, ?_⟩
    rw [hstep] at hcount ⊢
    exact h.delivered hontime hdelivers hcount
  · rw [hstep] at hdisarmed
    cases hdisarmed

theorem Followed.step_elsewhere (h : Followed listening) (hready : Ready listening.world)
    (hontime : listening.OnTime label)
    (hnone : ∀ checked, ¬ Checks listening.world label checked) :
    Followed (listening.step label) := by
  by_cases hdelivers : Delivers listening.world label
  · exact h.step_delivers hontime hdelivers
  · have hconfig : (listening.step label).world.config = listening.world.config :=
      step_config hready
    have harrivals : (listening.step label).arrivals = listening.arrivals := if_neg hdelivers
    cases Daemon.step_elsewhere hready hnone with
    | carried hcarries => exact h.of_carries hcarries hconfig harrivals
    | manual hcarries =>
        have hrestarted : Followed
            { listening with world := { listening.world with odinHealthFailCount := 0 } } :=
          followed_of_none listening.arrivals rfl fun harmed => h.lastMsg (Or.inl harmed)
        exact hrestarted.of_carries hcarries hconfig harrivals
    | delivered serial rest hrequest hup hqueue _ =>
        exact absurd ⟨hrequest, hup, by simp [hqueue]⟩ hdelivers

/-! ## The check -/

section Check

variable {world : World} {arrivals : List Int}

/-- A message that is recent and a start that is long ago leave no room for silence. -/
theorem Followed.flows (h : Followed { world, arrivals }) (hforgives : world.Forgives) :
    Flows world.config.odinHealthTimeoutSec arrivals
      (world.interact.steady - world.config.odinHealthResetUptimeSec) world.interact.steady := by
  obtain ⟨hmem, hflows⟩ := h.heard hforgives.counted hforgives.armed
  exact (hflows.extend hmem hforgives.flow).mono (le_sub_comm.mp hforgives.uptime)

theorem Followed.killed {next : World} (h : Followed { world, arrivals })
    (harmed : world.odinHealthArmed = true)
    (hstalled : world.config.odinHealthTimeoutSec <
      world.interact.steady - world.odinLastMsgSteady)
    (hsteady : next.steady = world.interact.steady) (hdisarmed : next.odinHealthArmed = false)
    (hlastMsg : next.odinLastMsgSteady = world.odinLastMsgSteady)
    (hconfig : next.config = world.config) : Followed { world := next, arrivals } where
  lastMsg _ := by
    rw [hlastMsg, hsteady]
    exact (h.lastMsg (Or.inl harmed)).trans world.interact_carries.steady
  heard _ harmed' := by
    rw [hdisarmed] at harmed'
    cases harmed'
  unheard _ _ := by
    right
    rw [hlastMsg, hsteady, hconfig]
    exact hstalled

theorem Followed.checkOdinHealth (h : Followed { world, arrivals }) :
    Followed { world := World.checkOdinHealth world, arrivals } := by
  have hconfig := world.checkOdinHealth_config
  rcases world.checkOdinHealth_cases with
    ⟨hcarries, _⟩ | ⟨hforgives, hforgiven, _⟩ | ⟨i, mp, hstalled, hkilled⟩
  · exact h.of_carries hcarries hconfig rfl
  · rw [hforgiven]
    refine followed_of_none arrivals rfl fun _ => ?_
    exact (h.lastMsg (Or.inl hforgives.armed)).trans world.interact_carries.steady
  · obtain ⟨_, _, _, harmed, _, hlong⟩ := hstalled
    rw [hkilled]
    split
    · exact h.killed harmed hlong rfl rfl rfl rfl
    · exact h.killed harmed hlong rfl rfl rfl rfl

end Check

theorem forgives_of_resets {checked : World} (hchecks : Checks listening.world label checked)
    (hresets : Resets listening.world label) : checked.Forgives := by
  have hafter := hchecks.step_carries.failCount
  have hbefore := hchecks.carries.failCount
  unfold Resets at hresets
  rcases checked.checkOdinHealth_cases with
    ⟨hcarries, _⟩ | ⟨hforgives, _⟩ | ⟨i, mp, _, hkilled⟩
  · have hsame := hcarries.failCount
    omega
  · exact hforgives
  · have hraised : checked.odinHealthFailCount ≤
        (World.checkOdinHealth checked).odinHealthFailCount := by
      rw [hkilled]
      split
      · exact le_rfl
      · exact Int.le_add_one le_rfl
    omega

theorem Followed.step_checks (h : Followed listening) (hready : Ready listening.world)
    {checked : World} (hchecks : Checks listening.world label checked) :
    Followed (listening.step label) ∧ listening.Sustained label := by
  have hconfig : (listening.step label).world.config = listening.world.config := step_config hready
  have harrivals : (listening.step label).arrivals = listening.arrivals := by
    refine if_neg fun hdelivers => ?_
    cases hchecks.request.symm.trans hdelivers.1
  have hbefore : Followed { world := checked, arrivals := listening.arrivals } :=
    h.of_carries hchecks.carries hchecks.config rfl
  refine ⟨hbefore.checkOdinHealth.of_carries hchecks.step_carries ?_ harrivals, ?_⟩
  · rw [hconfig, ← hchecks.config]
    exact checked.checkOdinHealth_config.symm
  · intro same hsame hresets
    cases hchecks.state.trans hsame.state.symm
    rw [← hchecks.config]
    exact hbefore.flows (forgives_of_resets hchecks hresets)

/-! ## Runs -/

theorem run_sustained (config : Config) (nodes : List ProcessNode) (ros steady : Int)
    (labels : List Label)
    (hontime : EveryStep step OnTime { world := initial config nodes ros steady } labels) :
    EveryStep step Sustained { world := initial config nodes ros steady } labels := by
  refine EveryStep.promises step (fun listening => Ready listening.world ∧ Followed listening) ?_
    ⟨ready_initial config nodes ros steady, followed_of_none [] rfl (by simp [initial])⟩ hontime
  rintro listening label ⟨hready, hfollowed⟩ hlabel
  have hready' : Ready (listening.step label).world := step_ready label hready
  by_cases hchecks : ∃ checked, Checks listening.world label checked
  · obtain ⟨checked, hchecks⟩ := hchecks
    obtain ⟨hnext, hsustained⟩ := hfollowed.step_checks hready hchecks
    exact ⟨⟨hready', hnext⟩, hsustained⟩
  · have hnone := not_exists.mp hchecks
    exact ⟨⟨hready', hfollowed.step_elsewhere hready hlabel hnone⟩,
      fun checked hchecked => absurd hchecked (hnone checked)⟩

/-- After the stall of the heard run, the next instance is forked and found RUNNING. It sends its
first message that long after the fork, and the check comes at once. -/
def initialising (elapsed : Nat) : List Label :=
  heardRun ++ [⟨.idle, [{ exits := [(100, .signaled 9)] }]⟩, ⟨.timer, []⟩,
    ⟨.timer, [{ elapsed := 2000000000 }, {}, {}, {}, { fork := some 101 }]⟩, ⟨.timer, []⟩,
    ⟨.idle, [{ elapsed, published := [1] }]⟩, ⟨.odometry, []⟩, ⟨.timer, []⟩]

/-- It goes on to send a message every four seconds. -/
def recovering : List Label :=
  initialising 4000000000 ++
    [⟨.idle, [{ elapsed := 4000000000, published := [1] }]⟩, ⟨.odometry, []⟩, ⟨.timer, []⟩,
      ⟨.idle, [{ elapsed := 4000000000, published := [1] }]⟩, ⟨.odometry, []⟩, ⟨.timer, []⟩]

set_option maxRecDepth 4000 in
/-- With a threshold of ten seconds, the count is dropped at the third message after the fork. -/
theorem sustained_initialising :
    EveryStep step Sustained
        { world := initial { odinHealthResetUptimeSec := 10 * sec } [odinDriver] 0 0 }
        recovering ∧
      (run step
        { world := initial { odinHealthResetUptimeSec := 10 * sec } [odinDriver] 0 0 }
        (recovering.take 15)).world.odinHealthFailCount = 1 ∧
      (run step
        { world := initial { odinHealthResetUptimeSec := 10 * sec } [odinDriver] 0 0 }
        recovering).world.odinHealthFailCount = 0 := by
  refine ⟨run_sustained { odinHealthResetUptimeSec := 10 * sec } [odinDriver] 0 0 recovering
    (by decide), ?_, ?_⟩
  · rw [run_world]
    decide
  · rw [run_world]
    decide

set_option maxRecDepth 4000 in
/-- An instance that is silent for a minute clears the count with its first message. -/
theorem not_sustained_initialising :
    ¬ ∀ config nodes ros steady labels,
      EveryStep step Sustained { world := initial config nodes ros steady } labels := by
  intro hall
  have hrun := hall {} [odinDriver] 0 0 (initialising 60000000000)
  have hlast : initialising 60000000000 =
      (initialising 60000000000).take 11 ++ [⟨.timer, []⟩] := by decide
  rw [hlast, everyStep_append] at hrun
  have hflows := hrun.2.1 _ ⟨rfl, by decide, by decide, rfl, by decide⟩ (by decide)
  obtain ⟨arrival, hmem, hbetween⟩ :=
    hflows (8 * sec) (68 * sec) (by decide) (by decide) (by decide)
  have hnone : ∀ arrival ∈ (run step { world := initial {} [odinDriver] 0 0 }
      ((initialising 60000000000).take 11)).arrivals,
      ¬ (8 * sec < arrival ∧ arrival < 68 * sec) := by
    decide
  exact hnone arrival hmem hbetween

end Listening

end AcflyRos.Daemon

import Mathlib.Data.List.Basic
import Mathlib.Logic.Relation

/-! # Runs and labelled actions of a transition system

A component is a deterministic step function that consumes one label at a time;
everything the surroundings choose is part of the label. A callback of the
component is decomposed into labelled actions, and an invariant is proved once
for each action. Conditions on a run are conditions on its labels, each read in
the state in which it is consumed.
-/

namespace AcflyRos.Transition

universe u v w w'

variable {σ : Type u}

section Runs

variable {ε : Type v} (step : σ → ε → σ)

/-- The state after consuming the labels from left to right. -/
def run (state : σ) (labels : List ε) : σ :=
  labels.foldl step state

@[simp] theorem run_nil (state : σ) : run step state [] = state := rfl

@[simp] theorem run_cons (state : σ) (label : ε) (labels : List ε) :
    run step state (label :: labels) = run step (step state label) labels := rfl

theorem run_append (state : σ) (early late : List ε) :
    run step state (early ++ late) = run step (run step state early) late :=
  List.foldl_append

/-- A run over translated labels. -/
theorem run_map {ζ : Type w} (translate : ζ → ε) (state : σ) (labels : List ζ) :
    run step state (labels.map translate) =
      run (fun state label => step state (translate label)) state labels :=
  List.foldl_map

/-- A system that keeps a record beside the state takes the same steps. -/
theorem run_project {τ : Type w} (step' : τ → ε → τ) (project : τ → σ)
    (hstep : ∀ other label, project (step' other label) = step (project other) label)
    (other : τ) (labels : List ε) :
    project (run step' other labels) = run step (project other) labels := by
  induction labels generalizing other with
  | nil => rfl
  | cons label rest ih => rw [run_cons, run_cons, ih, hstep]

/-- Every label of the run meets the condition in the state that consumes it. -/
def EveryStep (condition : σ → ε → Prop) : σ → List ε → Prop
  | _, [] => True
  | state, label :: labels =>
      condition state label ∧ EveryStep condition (step state label) labels

instance EveryStep.decidable {condition : σ → ε → Prop}
    [∀ state label, Decidable (condition state label)] :
    ∀ state labels, Decidable (EveryStep step condition state labels)
  | _, [] => isTrue trivial
  | state, label :: labels =>
      have : Decidable (EveryStep step condition (step state label) labels) :=
        EveryStep.decidable (step state label) labels
      inferInstanceAs (Decidable (_ ∧ _))

theorem EveryStep.mono {weak strong : σ → ε → Prop} {state : σ} {labels : List ε}
    (himp : ∀ state label, strong state label → weak state label)
    (hstrong : EveryStep step strong state labels) :
    EveryStep step weak state labels := by
  induction labels generalizing state with
  | nil => trivial
  | cons label labels ih => exact ⟨himp _ _ hstrong.1, ih hstrong.2⟩

theorem EveryStep.and {first second : σ → ε → Prop} {state : σ} {labels : List ε}
    (hfirst : EveryStep step first state labels) (hsecond : EveryStep step second state labels) :
    EveryStep step (fun state label => first state label ∧ second state label) state labels := by
  induction labels generalizing state with
  | nil => trivial
  | cons label labels ih => exact ⟨⟨hfirst.1, hsecond.1⟩, ih hfirst.2 hsecond.2⟩

theorem everyStep_append {condition : σ → ε → Prop} (state : σ) (early late : List ε) :
    EveryStep step condition state (early ++ late) ↔
      EveryStep step condition state early ∧
        EveryStep step condition (run step state early) late := by
  induction early generalizing state with
  | nil => simp [EveryStep]
  | cons label early ih => simp [EveryStep, ih, and_assoc]

/-- A condition on the labels alone. -/
theorem everyStep_of_forall {condition : ε → Prop} {labels : List ε}
    (hlabels : ∀ label ∈ labels, condition label) (state : σ) :
    EveryStep step (fun _ label => condition label) state labels := by
  induction labels generalizing state with
  | nil => trivial
  | cons label labels ih =>
      exact ⟨hlabels label List.mem_cons_self,
        ih (fun later hlater => hlabels later (List.mem_cons_of_mem _ hlater)) _⟩

/-- An invariant kept by every step that meets the condition holds after every
run whose steps all meet it. -/
theorem run_keeps (invariant : σ → Prop) {condition : σ → ε → Prop}
    (hstep : ∀ state label, invariant state → condition state label →
      invariant (step state label))
    {state : σ} {labels : List ε} (hstate : invariant state)
    (hlabels : EveryStep step condition state labels) :
    invariant (run step state labels) := by
  induction labels generalizing state with
  | nil => exact hstate
  | cons label labels ih => exact ih (hstep _ _ hstate hlabels.1) hlabels.2

/-- What such an invariant promises of a step that meets the condition it promises of every step
of the run. -/
theorem EveryStep.promises (invariant : σ → Prop) {promise condition : σ → ε → Prop}
    (hstep : ∀ state label, invariant state → condition state label →
      invariant (step state label) ∧ promise state label)
    {state : σ} {labels : List ε} (hstate : invariant state)
    (hlabels : EveryStep step condition state labels) : EveryStep step promise state labels := by
  induction labels generalizing state with
  | nil => trivial
  | cons label labels ih =>
      obtain ⟨hnext, hpromise⟩ := hstep state label hstate hlabels.1
      exact ⟨hpromise, ih hnext hlabels.2⟩

/-- The unconditional form of `run_keeps`. -/
theorem run_invariant (invariant : σ → Prop)
    (hstep : ∀ state label, invariant state → invariant (step state label))
    {state : σ} (labels : List ε) (hstate : invariant state) :
    invariant (run step state labels) := by
  induction labels generalizing state with
  | nil => exact hstate
  | cons label labels ih => exact ih (hstep _ _ hstate)

/-- What an invariant promises of a step it promises of every step of a run. -/
theorem everyStep_of_invariant (invariant : σ → Prop) {promise : σ → ε → Prop}
    (hstep : ∀ state label, invariant state → invariant (step state label))
    (hpromise : ∀ state label, invariant state → promise state label)
    {state : σ} (labels : List ε) (hstate : invariant state) :
    EveryStep step promise state labels := by
  induction labels generalizing state with
  | nil => trivial
  | cons label labels ih => exact ⟨hpromise _ _ hstate, ih (hstep _ _ hstate)⟩

/-- What survives a step, together with a promise on the step, exactly under a condition survives
a run, together with all promises, exactly when all its steps meet that condition. -/
theorem run_promises_iff (invariant holds : σ → Prop) {promise condition : σ → ε → Prop}
    (hstep : ∀ state label, invariant state → invariant (step state label) ∧
      (holds (step state label) ∧ promise state label ↔ holds state ∧ condition state label))
    {state : σ} (labels : List ε) (hstate : invariant state) :
    holds (run step state labels) ∧ EveryStep step promise state labels ↔
      holds state ∧ EveryStep step condition state labels := by
  induction labels generalizing state with
  | nil => simp [EveryStep]
  | cons label labels ih =>
      obtain ⟨hnext, hpromise⟩ := hstep state label hstate
      simp only [run_cons, EveryStep]
      rw [and_left_comm, ih hnext, ← and_assoc, ← and_assoc, ← hpromise,
        and_comm (a := promise _ _)]

/-- The same without promises. -/
theorem run_holds_iff (invariant holds : σ → Prop) {condition : σ → ε → Prop}
    (hstep : ∀ state label, invariant state → invariant (step state label) ∧
      (holds (step state label) ↔ holds state ∧ condition state label))
    {state : σ} (labels : List ε) (hstate : invariant state) :
    holds (run step state labels) ↔ holds state ∧ EveryStep step condition state labels := by
  have hpromising : ∀ state label, invariant state → invariant (step state label) ∧
      (holds (step state label) ∧ True ↔ holds state ∧ condition state label) := by
    simpa only [and_true] using hstep
  have hpromises := run_promises_iff step invariant holds hpromising labels hstate
  have htrivial := everyStep_of_forall step (fun _ (_ : _ ∈ labels) => trivial) state
  rwa [and_iff_left htrivial] at hpromises

/-- When a step that breaks the condition spoils the state at once, and the others keep it good,
all states along a run are unspoilt exactly when all its steps meet the condition. -/
theorem forall_prefix_iff_everyStep (invariant good holds : σ → Prop) {condition : σ → ε → Prop}
    (hinvariant : ∀ state label, invariant state → invariant (step state label))
    (hgood : ∀ state label, good state → condition state label → good (step state label))
    (hholds : ∀ state, good state → holds state)
    (hspoils : ∀ state label, invariant state → ¬ condition state label →
      ¬ holds (step state label))
    {state : σ} (labels : List ε) (hstate : invariant state) (hstart : good state) :
    (∀ early, early <+: labels → holds (run step state early)) ↔
      EveryStep step condition state labels := by
  induction labels generalizing state with
  | nil => simp [EveryStep, hholds state hstart]
  | cons label rest ih =>
      by_cases hlabel : condition state label
      · rw [EveryStep, ← ih (hinvariant _ _ hstate) (hgood _ _ hstart hlabel)]
        simp only [hlabel, true_and, List.prefix_cons_iff]
        constructor
        · intro hall early hearly
          exact hall (label :: early) (Or.inr ⟨early, rfl, hearly⟩)
        · rintro hall early (rfl | ⟨late, rfl, hlate⟩)
          · exact hholds state hstart
          · exact hall late hlate
      · constructor
        · intro hall
          exact absurd (hall [label] ⟨rest, rfl⟩) (hspoils _ _ hstate hlabel)
        · exact fun hlabels => absurd hlabels.1 hlabel

/-- A relation that every label meeting the condition preserves, the second system
consuming its translation, relates the states after whole runs. -/
theorem run_simulates {τ : Type w} {ζ : Type w'} (step' : τ → ζ → τ) (translate : ε → ζ)
    (related : σ → τ → Prop) {condition : σ → ε → Prop}
    (hstep : ∀ state other label, related state other → condition state label →
      related (step state label) (step' other (translate label)))
    {state : σ} {other : τ} {labels : List ε} (hstate : related state other)
    (hlabels : EveryStep step condition state labels) :
    related (run step state labels) (run step' other (labels.map translate)) := by
  induction labels generalizing state other with
  | nil => exact hstate
  | cons label labels ih => exact ih (hstep _ _ _ hstate hlabels.1) hlabels.2

end Runs

section Actions

variable {κ : Type w} {act : κ → σ → σ → Prop}

/-- Finitely many actions in sequence, each of an allowed kind. -/
def Acts (act : κ → σ → σ → Prop) (allow : κ → Prop) : σ → σ → Prop :=
  Relation.ReflTransGen (fun state next => ∃ kind, allow kind ∧ act kind state next)

namespace Acts

variable {allow : κ → Prop} {first second third : σ}

@[refl] theorem refl (state : σ) : Acts act allow state state :=
  Relation.ReflTransGen.refl

theorem single {kind : κ} (hkind : allow kind) (hact : act kind first second) :
    Acts act allow first second :=
  Relation.ReflTransGen.single ⟨kind, hkind, hact⟩

@[trans] theorem trans (hfirst : Acts act allow first second)
    (hsecond : Acts act allow second third) : Acts act allow first third :=
  Relation.ReflTransGen.trans hfirst hsecond

theorem tail {kind : κ} (hfirst : Acts act allow first second) (hkind : allow kind)
    (hact : act kind second third) : Acts act allow first third :=
  hfirst.trans (single hkind hact)

theorem mono {wider : κ → Prop} (himp : ∀ kind, allow kind → wider kind)
    (hacts : Acts act allow first second) : Acts act wider first second := by
  induction hacts with
  | refl => exact refl first
  | tail _ hlast ih =>
      obtain ⟨kind, hkind, hact⟩ := hlast
      exact ih.tail (himp kind hkind) hact

/-- The invariant rule: one case for each action kind suffices. -/
theorem keeps (invariant : σ → Prop)
    (hact : ∀ kind state next, allow kind → act kind state next → invariant state →
      invariant next)
    (hacts : Acts act allow first second) (hfirst : invariant first) : invariant second := by
  induction hacts with
  | refl => exact hfirst
  | tail _ hlast ih =>
      obtain ⟨kind, hkind, hlast⟩ := hlast
      exact hact kind _ _ hkind hlast ih

/-- The frame rule: what no allowed action changes is unchanged. -/
theorem frame {α : Type v} (observe : σ → α)
    (hact : ∀ kind state next, allow kind → act kind state next →
      observe next = observe state)
    (hacts : Acts act allow first second) : observe second = observe first :=
  hacts.keeps (fun state => observe state = observe first)
    (fun kind state next hkind hstep hstate => (hact kind state next hkind hstep).trans hstate)
    rfl

/-- A loop over indices whose body is a sequence of actions under an invariant. -/
theorem foldl {α : Type v} {body : σ → α → σ} (invariant : σ → Prop)
    (hbody : ∀ state index, invariant state →
      Acts act allow state (body state index) ∧ invariant (body state index))
    (indices : List α) {state : σ} (hstate : invariant state) :
    Acts act allow state (indices.foldl body state) ∧
      invariant (indices.foldl body state) := by
  induction indices generalizing state with
  | nil => exact ⟨refl state, hstate⟩
  | cons index rest ih =>
      obtain ⟨hhead, hinv⟩ := hbody state index hstate
      obtain ⟨htail, hlast⟩ := ih hinv
      exact ⟨hhead.trans htail, hlast⟩

end Acts

/-- A loop whose body settles its own index, and unsettles none, settles all of them. -/
theorem foldl_covers {α : Type v} (body : σ → α → σ) (invariant : σ → Prop)
    (settled : α → σ → Prop)
    (hbody : ∀ state index, invariant state → invariant (body state index))
    (hhere : ∀ state index, invariant state → settled index (body state index))
    (hkeep : ∀ state index other, invariant state → settled other state →
      settled other (body state index))
    (indices : List α) {state : σ} (hstate : invariant state) :
    invariant (indices.foldl body state) ∧
      (∀ index, settled index state → settled index (indices.foldl body state)) ∧
      ∀ index ∈ indices, settled index (indices.foldl body state) := by
  induction indices generalizing state with
  | nil => exact ⟨hstate, fun _ hsettled => hsettled, fun _ hmem => absurd hmem List.not_mem_nil⟩
  | cons index rest ih =>
      obtain ⟨hinv, hold, hnew⟩ := ih (hbody state index hstate)
      refine ⟨hinv, fun other hother => hold other (hkeep state index other hstate hother), ?_⟩
      intro other hmem
      rcases List.mem_cons.mp hmem with rfl | hmem
      · exact hold _ (hhere state _ hstate)
      · exact hnew other hmem

end Actions

/-- A loop whose body cannot fail while an invariant holds, and keeps it, succeeds. -/
theorem foldlM_total {α : Type v} {body : σ → α → Option σ} (invariant : σ → Prop)
    {items : List α}
    (hbody : ∀ state, ∀ item ∈ items, invariant state →
      ∃ next, body state item = some next ∧ invariant next)
    {state : σ} (hstate : invariant state) :
    ∃ last, items.foldlM body state = some last ∧ invariant last := by
  induction items generalizing state with
  | nil => exact ⟨state, rfl, hstate⟩
  | cons item rest ih =>
      obtain ⟨next, hnext, hinv⟩ := hbody state item List.mem_cons_self hstate
      obtain ⟨last, hlast, hfinal⟩ :=
        ih (fun later other hother => hbody later other (List.mem_cons_of_mem item hother)) hinv
      exact ⟨last, by rw [List.foldlM_cons, hnext]; exact hlast, hfinal⟩

/-- A loop that succeeds, whose body keeps an invariant and settles its own item without
unsettling any, settles all of them. -/
theorem foldlM_covers {α : Type v} {body : σ → α → Option σ} (invariant : σ → Prop)
    (settled : α → σ → Prop) {items : List α}
    (hbody : ∀ state, ∀ item ∈ items, ∀ next, invariant state → body state item = some next →
      invariant next ∧ settled item next ∧ ∀ other, settled other state → settled other next)
    {state last : σ} (hstate : invariant state) (hlast : items.foldlM body state = some last) :
    invariant last ∧ (∀ other, settled other state → settled other last) ∧
      ∀ item ∈ items, settled item last := by
  induction items generalizing state with
  | nil =>
      obtain rfl := Option.some.inj hlast
      exact ⟨hstate, fun _ hsettled => hsettled, fun _ hmem => absurd hmem List.not_mem_nil⟩
  | cons item rest ih =>
      rw [List.foldlM_cons] at hlast
      obtain ⟨next, hnext, hrest⟩ := Option.bind_eq_some_iff.mp hlast
      obtain ⟨hinv, hhere, hkeep⟩ := hbody state item List.mem_cons_self next hstate hnext
      obtain ⟨hfinal, hold, hnew⟩ :=
        ih (fun later other hother => hbody later other (List.mem_cons_of_mem item hother)) hinv
          hrest
      refine ⟨hfinal, fun other hother => hold other (hkeep other hother), ?_⟩
      intro other hmem
      rcases List.mem_cons.mp hmem with rfl | hmem
      · exact hold _ hhere
      · exact hnew other hmem

/-- The same with nothing to settle. -/
theorem foldlM_keeps {α : Type v} {body : σ → α → Option σ} (invariant : σ → Prop)
    {items : List α}
    (hbody : ∀ state, ∀ item ∈ items, ∀ next, invariant state → body state item = some next →
      invariant next)
    {state last : σ} (hstate : invariant state) (hlast : items.foldlM body state = some last) :
    invariant last := by
  have hcovers := foldlM_covers invariant (fun _ _ => True)
    (fun state item hitem next hinv hnext =>
      ⟨hbody state item hitem next hinv hnext, trivial, fun _ _ => trivial⟩) hstate hlast
  exact hcovers.1

/-- A loop over a body that succeeds more often ends in the same way. -/
theorem foldlM_mono {α : Type v} {body body' : σ → α → Option σ} {items : List α}
    (hbody : ∀ state item next, body state item = some next → body' state item = some next)
    {state last : σ} (hlast : items.foldlM body state = some last) :
    items.foldlM body' state = some last := by
  induction items generalizing state with
  | nil => exact hlast
  | cons item rest ih =>
      rw [List.foldlM_cons] at hlast ⊢
      obtain ⟨next, hnext, hrest⟩ := Option.bind_eq_some_iff.mp hlast
      rw [hbody state item next hnext]
      exact ih hrest

/-- A loop that notes the items it keeps, and decides by nothing that it changes itself, notes
them in order, the newest first. -/
theorem foldl_notes {α : Type v} {β : Type w} {body : σ → α → σ} (notes : σ → List β)
    (keep : α → Bool) (note : α → β) (invariant : σ → Prop)
    (hbody : ∀ state item, invariant state → invariant (body state item) ∧
      notes (body state item) = if keep item then note item :: notes state else notes state)
    (items : List α) {state : σ} (hstate : invariant state) :
    notes (items.foldl body state) = ((items.filter keep).map note).reverse ++ notes state := by
  induction items generalizing state with
  | nil => rfl
  | cons item rest ih =>
      obtain ⟨hinv, hnotes⟩ := hbody state item hstate
      rw [List.foldl_cons, ih hinv, hnotes]
      cases hkeep : keep item <;> simp [hkeep]

end AcflyRos.Transition

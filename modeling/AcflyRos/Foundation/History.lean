import Mathlib.Data.List.Basic

/-! # Histories whose events are justified by earlier ones

A history lists events, the newest first. A rule says what the events before a
given one must contain; most rules concern one kind of event only.
-/

namespace AcflyRos.History

universe u

variable {ε : Type u} {rule : ε → List ε → Prop}

/-- Every event meets the rule with respect to the events before it. -/
def Justified (rule : ε → List ε → Prop) : List ε → Prop
  | [] => True
  | event :: earlier => rule event earlier ∧ Justified rule earlier

instance Justified.decidable [∀ event earlier, Decidable (rule event earlier)] :
    ∀ history, Decidable (Justified rule history)
  | [] => isTrue trivial
  | event :: earlier =>
      have := Justified.decidable earlier
      inferInstanceAs (Decidable (rule event earlier ∧ Justified rule earlier))

/-- The rule holds at every position of the history. -/
theorem Justified.at {later earlier : List ε} {event : ε}
    (hjustified : Justified rule (later ++ event :: earlier)) : rule event earlier := by
  induction later with
  | nil => exact hjustified.1
  | cons newest rest ih => exact ih hjustified.2

end AcflyRos.History

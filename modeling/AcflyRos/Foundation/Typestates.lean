import AcflyRos.Foundation.History

/-! # Resources that are used by a protocol

Every resource has a state, which the operations on it change, and a rule says in which states an
operation is allowed. Some operations are on no resource in particular and change the states of all.
A history lists calls, the newest first; a call may be made on something that is no resource at all.
-/

namespace AcflyRos.Typestates

open AcflyRos.History

universe u v w

structure Protocol (ω : Type v) (σ : Type w) where
  fresh : σ
  /-- The operation is on no resource in particular. -/
  isBroad : ω → Bool
  after : ω → σ → σ

structure Call (κ : Type u) (ω : Type v) where
  target : Option κ
  op : ω
  deriving DecidableEq, Repr

namespace Protocol

variable {κ : Type u} [DecidableEq κ] {ω : Type v} {σ : Type w} (protocol : Protocol ω σ)

/-- The state of a resource after the calls. -/
def state : List (Call κ ω) → κ → σ
  | [], _ => protocol.fresh
  | call :: earlier, key =>
      if protocol.isBroad call.op = true ∨ call.target = some key then
        protocol.after call.op (state earlier key)
      else state earlier key

/-- A call on a resource is made in a state in which the rule allows it. -/
def Obeys (allows : ω → σ → Prop) (call : Call κ ω) (earlier : List (Call κ ω)) : Prop :=
  protocol.isBroad call.op = true ∨
    ∃ key, call.target = some key ∧ allows call.op (protocol.state earlier key)

instance (allows : ω → σ → Prop) [∀ op state, Decidable (allows op state)] (call : Call κ ω)
    (earlier : List (Call κ ω)) : Decidable (protocol.Obeys allows call earlier) :=
  match htarget : call.target with
  | none => decidable_of_iff (protocol.isBroad call.op = true) (by simp [Obeys, htarget])
  | some key =>
      decidable_of_iff (protocol.isBroad call.op = true ∨
        allows call.op (protocol.state earlier key)) (by simp [Obeys, htarget])

variable {protocol} {earlier : List (Call κ ω)} {op : ω} {target : Option κ} {key : κ}

theorem state_cons_of_eq (heq : target = some key) :
    protocol.state (⟨target, op⟩ :: earlier) key =
      protocol.after op (protocol.state earlier key) :=
  if_pos (Or.inr heq)

theorem state_cons_broad (hbroad : protocol.isBroad op = true) :
    protocol.state (⟨target, op⟩ :: earlier) key =
      protocol.after op (protocol.state earlier key) :=
  if_pos (Or.inl hbroad)

theorem state_cons_of_ne (hnarrow : protocol.isBroad op = false) (hne : target ≠ some key) :
    protocol.state (⟨target, op⟩ :: earlier) key = protocol.state earlier key :=
  if_neg (by simp [hnarrow, hne])

/-- A call whose operation leaves the state as it is. -/
theorem state_cons_of_same
    (hsame : protocol.after op (protocol.state earlier key) = protocol.state earlier key) :
    protocol.state (⟨target, op⟩ :: earlier) key = protocol.state earlier key := by
  show (if _ then protocol.after op (protocol.state earlier key) else _) = _
  rw [hsame, ite_self]

/-- What every operation preserves holds of every resource. -/
theorem state_invariant (invariant : σ → Prop)
    (hafter : ∀ op state, invariant state → invariant (protocol.after op state)) {call : Call κ ω}
    (hstate : invariant (protocol.state earlier key)) :
    invariant (protocol.state (call :: earlier) key) := by
  unfold state
  split
  next => exact hafter _ _ hstate
  next => exact hstate

end Protocol

end AcflyRos.Typestates

import Mathlib.Algebra.Order.Monoid.Unbundled.Basic
import Mathlib.Algebra.Order.Monoid.Defs
import Mathlib.Algebra.Group.Basic
import Mathlib.Logic.Function.Iterate
import Mathlib.Tactic.Ring
import Mathlib.Data.Nat.Find

/-! # Polling loops

A loop that repeats its body for as long as a condition holds, with a clock. The body brings no
progress but for time: when the condition cannot survive an iteration that ends after some limit,
and every iteration takes at least a given time, the loop ends by the iteration that passes the
limit.
-/

namespace AcflyRos.Polling

universe u v

section Polling

variable {σ : Type u} {α : Type v} (body : σ → σ) (waits : σ → Prop) (clock : σ → α)

/-- The loop leaves after exactly that many iterations. -/
structure EndsAfter (state : σ) (count : Nat) : Prop where
  waiting : ∀ k < count, waits (body^[k] state)
  done : ¬ waits (body^[count] state)

/-- Each of the first iterations that the loop reaches takes at least that time. -/
def Advances [Add α] [LE α] (step : α) (state : σ) (bound : Nat) : Prop :=
  ∀ k < bound, (∀ j ≤ k, waits (body^[j] state)) →
    clock (body^[k] state) + step ≤ clock (body^[k + 1] state)

variable {body waits clock}

/-- A loop that does not go on for ever has a first state that it does not wait in. -/
theorem exists_endsAfter {state : σ} {bound : Nat}
    (hends : ¬ ∀ k ≤ bound, waits (body^[k] state)) :
    ∃ count ≤ bound, EndsAfter body waits state count := by
  classical
  push Not at hends
  obtain ⟨last, hlast, hdone⟩ := hends
  have hsome : ∃ count, ¬ waits (body^[count] state) := ⟨last, hdone⟩
  refine ⟨Nat.find hsome, (Nat.find_min' hsome hdone).trans hlast, fun k hk => ?_, ?_⟩
  · exact not_not.mp (Nat.find_min hsome hk)
  · exact Nat.find_spec hsome

/-- What every waiting state hands on to the next one holds in all that the loop reaches. -/
theorem iterate_keeps (invariant : σ → Prop)
    (hkeeps : ∀ state, invariant state → waits state → invariant (body state)) {state : σ}
    (hstate : invariant state) {count : Nat} (hwaits : ∀ k < count, waits (body^[k] state)) :
    invariant (body^[count] state) := by
  induction count with
  | zero => exact hstate
  | succ count ih =>
      have hbefore := ih fun k hk => hwaits k (Nat.lt_succ_of_lt hk)
      rw [Function.iterate_succ_apply']
      exact hkeeps _ hbefore (hwaits count count.lt_succ_self)

variable [AddCommMonoid α] [LinearOrder α] [IsOrderedAddMonoid α] {step : α}

/-- The time that has passed after so many iterations. -/
theorem clock_iterate {state : σ} {bound count : Nat}
    (hadvances : Advances body waits clock step state bound) (hcount : count ≤ bound)
    (hwaits : ∀ k < count, waits (body^[k] state)) :
    clock state + count • step ≤ clock (body^[count] state) := by
  induction count with
  | zero => simp
  | succ count ih =>
      have hbefore := ih (Nat.le_of_succ_le hcount) fun k hk => hwaits k (Nat.lt_succ_of_lt hk)
      have hiteration := hadvances count hcount fun j hj => hwaits j (Nat.lt_succ_of_le hj)
      calc clock state + (count + 1) • step
          = clock state + count • step + step := by rw [succ_nsmul, add_assoc]
        _ ≤ clock (body^[count] state) + step := add_le_add_left hbefore step
        _ ≤ clock (body^[count + 1] state) := hiteration

/-- The loop ends by the iteration that passes the limit. -/
theorem exists_endsAfter_of_limit (invariant : σ → Prop)
    (hkeeps : ∀ state, invariant state → waits state → invariant (body state)) {limit : α}
    (hlimit : ∀ state, invariant state → waits state → waits (body state) →
      clock (body state) ≤ limit)
    {state : σ} (hstate : invariant state) {bound : Nat} (hbound : 0 < bound)
    (hadvances : Advances body waits clock step state bound)
    (hpassed : limit < clock state + bound • step) :
    ∃ count ≤ bound, EndsAfter body waits state count := by
  refine exists_endsAfter fun hall => ?_
  have htime := clock_iterate hadvances (Nat.le_refl bound) fun k hk => hall k hk.le
  obtain ⟨last, rfl⟩ : ∃ last, bound = last + 1 := ⟨bound - 1, by omega⟩
  have hlast := iterate_keeps invariant hkeeps hstate fun k (hk : k < last) => hall k (by omega)
  have hwaits := hall (last + 1) (Nat.le_refl _)
  rw [Function.iterate_succ_apply'] at hwaits htime
  have hpunctual := hlimit _ hlast (hall last (Nat.le_succ last)) hwaits
  exact absurd (htime.trans hpunctual) (not_le.mpr hpassed)

end Polling

/-- How many iterations of at least that time pass a time-out, with one to spare. -/
def iterations (timeout step : Int) : Int := timeout / step + 2

theorem iterations_pos {timeout step : Int} (hstep : 0 < step) (htimeout : -step ≤ timeout) :
    0 < iterations timeout step := by
  have hfloor : -1 ≤ timeout / step :=
    (Int.le_ediv_iff_mul_le hstep).mpr (by rwa [Int.neg_one_mul])
  unfold iterations
  omega

/-- The clock may have been behind the request by about as much as the spare iteration takes. -/
theorem limit_lt_of_iterations {timeout step requested time : Int} (hstep : 0 < step)
    (htimeout : -step ≤ timeout) (hrequest : requested + timeout % step < time + 2 * step) :
    requested + timeout < time + (iterations timeout step).toNat • step := by
  have hbound : ((iterations timeout step).toNat : Int) = timeout / step + 2 :=
    Int.toNat_of_nonneg (iterations_pos hstep htimeout).le
  have hsplit := Int.mul_ediv_add_emod timeout step
  calc requested + timeout
      = requested + timeout % step + step * (timeout / step) := by omega
    _ < time + 2 * step + step * (timeout / step) := Int.add_lt_add_right hrequest _
    _ = time + (iterations timeout step).toNat • step := by
        rw [nsmul_eq_mul, hbound]
        ring

end AcflyRos.Polling

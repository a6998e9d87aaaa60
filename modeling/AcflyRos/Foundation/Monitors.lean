import Mathlib.Data.Nat.Basic

/-! # Waiting for a condition

A thread waits on a condition variable until data behind a mutex meet a condition. It evaluates
the condition with the mutex held and lets go of the mutex only when it falls asleep. Other
threads change the data and notify it afterwards. A notification that finds the thread awake
does nothing, so that it is lost if the thread has refused the data but does not sleep yet:
changes made with the mutex cannot fall there, changes made without it can.
-/

namespace AcflyRos.Monitors

universe u

inductive Waiter where
  | awake
  /-- The condition did not hold, and the mutex is still held. -/
  | refused
  | asleep
  deriving DecidableEq, Repr

/-- Data, the thread that waits for them, and the changes that are still to be notified. -/
structure Monitor (δ : Type u) where
  data : δ
  waiter : Waiter := .awake
  notices : Nat := 0
  deriving DecidableEq, Repr

namespace Monitor

variable {δ : Type u}

/-- Another thread changes the data and owes a notification. -/
def update (change : δ → δ) (monitor : Monitor δ) : Monitor δ :=
  { monitor with data := change monitor.data, notices := monitor.notices + 1 }

/-- A change that nobody is notified of. -/
def amend (change : δ → δ) (monitor : Monitor δ) : Monitor δ :=
  { monitor with data := change monitor.data }

/-- `notify_one`, `notify_all`, by a thread that owes it. -/
def notify (monitor : Monitor δ) : Monitor δ :=
  if monitor.notices = 0 then monitor
  else
    { monitor with
      notices := monitor.notices - 1
      waiter := if monitor.waiter = .asleep then .awake else monitor.waiter }

/-- A wakeup without a notification. -/
def rouse (monitor : Monitor δ) : Monitor δ :=
  { monitor with waiter := if monitor.waiter = .asleep then .awake else monitor.waiter }

/-- The condition does not hold. -/
def refuse (monitor : Monitor δ) : Monitor δ :=
  { monitor with waiter := .refused }

/-- The mutex is let go. -/
def sleep (monitor : Monitor δ) : Monitor δ :=
  { monitor with waiter := .asleep }

section Waking

variable {monitor : Monitor δ}

@[simp] theorem data_notify : monitor.notify.data = monitor.data := by
  unfold notify
  split <;> rfl

@[simp] theorem data_rouse : monitor.rouse.data = monitor.data := rfl

theorem waiter_rouse (hawake : monitor.waiter = .awake) : monitor.rouse.waiter = .awake := by
  simp [rouse, hawake]

theorem waiter_notify (hawake : monitor.waiter = .awake) : monitor.notify.waiter = .awake := by
  unfold notify
  split
  next => exact hawake
  next => simp [hawake]

end Waking

/-- No change that the thread waits for is forgotten: the thread does not refuse such data, and
when it sleeps over them a notification is still to come. -/
structure Heeds (ready : δ → Prop) (monitor : Monitor δ) : Prop where
  refused : monitor.waiter = .refused → ¬ ready monitor.data
  asleep : monitor.waiter = .asleep → ready monitor.data → 0 < monitor.notices

namespace Heeds

variable {ready : δ → Prop} {monitor : Monitor δ}

theorem of_awake (hawake : monitor.waiter = .awake) : monitor.Heeds ready :=
  ⟨by simp [hawake], by simp [hawake]⟩

/-- A change with the mutex held finds the thread awake or asleep. -/
theorem update (change : δ → δ) (hfree : monitor.waiter ≠ .refused) :
    (monitor.update change).Heeds ready :=
  ⟨fun hrefused => absurd hrefused hfree, fun _ _ => Nat.succ_pos _⟩

/-- Neither does a change matter that does not make the condition true. -/
theorem update_of_imp (h : monitor.Heeds ready) {change : δ → δ}
    (himp : ready (change monitor.data) → ready monitor.data) :
    (monitor.update change).Heeds ready :=
  ⟨fun hrefused hready => h.refused hrefused (himp hready), fun _ _ => Nat.succ_pos _⟩

theorem amend_of_imp (h : monitor.Heeds ready) {change : δ → δ}
    (himp : ready (change monitor.data) → ready monitor.data) :
    (monitor.amend change).Heeds ready :=
  ⟨fun hrefused hready => h.refused hrefused (himp hready),
    fun hasleep hready => h.asleep hasleep (himp hready)⟩

theorem rouse (h : monitor.Heeds ready) : monitor.rouse.Heeds ready := by
  unfold Monitor.rouse
  split
  next => exact of_awake rfl
  next hwaiter => exact ⟨h.refused, fun hasleep => absurd hasleep hwaiter⟩

theorem notify (h : monitor.Heeds ready) : monitor.notify.Heeds ready := by
  unfold Monitor.notify
  split
  next => exact h
  next hnotices =>
    split
    next => exact of_awake rfl
    next hwaiter => exact ⟨h.refused, fun hasleep => absurd hasleep hwaiter⟩

theorem refuse (hready : ¬ ready monitor.data) : monitor.refuse.Heeds ready :=
  ⟨fun _ => hready, by simp [Monitor.refuse]⟩

theorem sleep (h : monitor.Heeds ready) (hwaiter : monitor.waiter = .refused) :
    monitor.sleep.Heeds ready :=
  ⟨by simp [Monitor.sleep], fun _ hready => absurd hready (h.refused hwaiter)⟩

/-- The thread sleeps for a reason when nothing is left to be notified. -/
theorem not_ready (h : monitor.Heeds ready) (hasleep : monitor.waiter = .asleep)
    (hnotices : monitor.notices = 0) : ¬ ready monitor.data :=
  fun hready => Nat.ne_of_gt (h.asleep hasleep hready) hnotices

/-- A notification that is due wakes a thread that sleeps although the condition holds. -/
theorem notify_awake (h : monitor.Heeds ready) (hready : ready monitor.data) :
    monitor.notify.waiter = .awake := by
  cases hwaiter : monitor.waiter with
  | awake => exact waiter_notify hwaiter
  | refused => exact absurd hready (h.refused hwaiter)
  | asleep =>
      have hnotices := Nat.ne_of_gt (h.asleep hwaiter hready)
      simp [Monitor.notify, hnotices, hwaiter]

end Heeds

end Monitor

end AcflyRos.Monitors

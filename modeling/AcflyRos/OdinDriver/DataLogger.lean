import Mathlib.Algebra.GroupWithZero.Nat
import Mathlib.Data.List.Infix
import AcflyRos.Foundation.Monitors
import AcflyRos.Foundation.Transition

/-! # The binary data logger

`BinaryDataLogger::Writer` (`data_logger.h`) appends frames to a file in a thread of its own.
The threads of the driver collect frames in batches; the worker takes a batch at a time and
writes it. `shutdown` hands over what is left, tells the worker to stop and joins it. The
critical sections of `enqueue` and `shutdown`, their notifications and the steps of the worker
come in any order.
-/

namespace AcflyRos.OdinDriver.DataLogger

open AcflyRos.Transition AcflyRos.Monitors

abbrev Frame := List UInt8

/-- What the mutex guards. -/
structure Buffers where
  pending : List Frame := []
  writeQueue : List (List Frame) := []
  stop : Bool := false
  deriving DecidableEq, Repr

namespace Buffers

variable (batchSize : Nat)

/-- `swap_pending_unlocked` -/
def swapPendingUnlocked (buffers : Buffers) : Buffers :=
  if buffers.pending = [] then buffers
  else
    { buffers with writeQueue := buffers.writeQueue ++ [buffers.pending], pending := [] }

/-- `pending.emplace_back` -/
def emplaceBack (frame : Frame) (buffers : Buffers) : Buffers :=
  { buffers with pending := buffers.pending ++ [frame] }

/-- The critical section of `enqueue`. -/
def enqueue (frame : Frame) (buffers : Buffers) : Buffers :=
  if batchSize ≤ (buffers.emplaceBack frame).pending.length then
    (buffers.emplaceBack frame).swapPendingUnlocked
  else buffers.emplaceBack frame

/-- The critical section of `shutdown`. -/
def shutdown (buffers : Buffers) : Buffers :=
  { buffers.swapPendingUnlocked with stop := true }

/-- What the worker waits for. -/
def Ready (buffers : Buffers) : Prop := buffers.stop = true ∨ buffers.writeQueue ≠ []

instance : DecidablePred Ready := fun _ => inferInstanceAs (Decidable (_ ∨ _))

end Buffers

/-- Where the worker is in `run`. -/
inductive Worker where
  | starting
  /-- The file could not be opened, and the thread has ended. -/
  | failed
  /-- At the head of the loop, or waiting there. -/
  | looping
  /-- The frames of the batch that are still to be written. -/
  | writing (batch : List Frame)
  /-- The thread has ended. -/
  | finished
  deriving DecidableEq, Repr

structure Writer where
  batchSize : Nat
  monitor : Monitor Buffers := { data := {} }
  worker : Worker := .starting
  /-- The bytes of the file. -/
  file : List UInt8
  /-- The frames that were enqueued, in the order of the critical sections. -/
  enqueued : List Frame := []
  /-- Those of them that `shutdown` found when it set `stop`. -/
  closing : Option (List Frame) := none
  deriving DecidableEq, Repr

inductive Label where
  | enqueue (frame : Frame)
  | shutdown
  | notify
  /-- A spurious wakeup. -/
  | rouse
  /-- The file is opened, or not. -/
  | openFile (isOpen : Bool)
  /-- What the worker does next. -/
  | work
  deriving DecidableEq, Repr

namespace Writer

/-- The critical section of the loop, once the condition holds. -/
def takeBatch (writer : Writer) : Writer :=
  match writer.monitor.data.writeQueue with
  | batch :: rest =>
      { writer with
        monitor := writer.monitor.amend fun buffers => { buffers with writeQueue := rest }
        worker := .writing batch }
  | [] => { writer with worker := .finished }

/-- `run` -/
def work (writer : Writer) : Writer :=
  match writer.worker with
  | .looping =>
      match writer.monitor.waiter with
      | .awake =>
          if writer.monitor.data.Ready then writer.takeBatch
          else { writer with monitor := writer.monitor.refuse }
      | .refused => { writer with monitor := writer.monitor.sleep }
      | .asleep => writer
  | .writing (frame :: batch) =>
      { writer with file := writer.file ++ frame, worker := .writing batch }
  | .writing [] => { writer with worker := .looping }
  | .starting | .failed | .finished => writer

/-- A thread that finds the mutex taken waits for it. -/
def enqueue (writer : Writer) (frame : Frame) : Writer :=
  if writer.monitor.waiter = .refused then writer
  else
    { writer with
      monitor := writer.monitor.update (Buffers.enqueue writer.batchSize frame)
      enqueued := writer.enqueued ++ [frame] }

/-- The first call of `shutdown` has something to do. -/
def shutdown (writer : Writer) : Writer :=
  if writer.monitor.waiter = .refused ∨ writer.monitor.data.stop = true then writer
  else
    { writer with
      monitor := writer.monitor.update Buffers.shutdown
      closing := some writer.enqueued }

def openFile (writer : Writer) (isOpen : Bool) : Writer :=
  if writer.worker = .starting then
    { writer with worker := if isOpen then .looping else .failed }
  else writer

def step (writer : Writer) : Label → Writer
  | .enqueue frame => writer.enqueue frame
  | .shutdown => writer.shutdown
  | .notify => { writer with monitor := writer.monitor.notify }
  | .rouse => { writer with monitor := writer.monitor.rouse }
  | .openFile isOpen => writer.openFile isOpen
  | .work => writer.work

/-- A new writer, and the file it appends to. -/
def start (batchSize : Nat) (file : List UInt8) : Writer := { batchSize, file }

end Writer

/-! ## What one step does -/

namespace Buffers

variable {batchSize : Nat} {frame : Frame} {buffers : Buffers}

/-- The frames that wait to be written, in order. -/
def frames (buffers : Buffers) : List Frame := buffers.writeQueue.flatten ++ buffers.pending

@[simp] theorem frames_swapPendingUnlocked :
    buffers.swapPendingUnlocked.frames = buffers.frames := by
  unfold swapPendingUnlocked
  split
  next => rfl
  next => simp [frames]

@[simp] theorem pending_swapPendingUnlocked : buffers.swapPendingUnlocked.pending = [] := by
  unfold swapPendingUnlocked
  split
  next hempty => exact hempty
  next => rfl

@[simp] theorem stop_swapPendingUnlocked :
    buffers.swapPendingUnlocked.stop = buffers.stop := by
  unfold swapPendingUnlocked
  split <;> rfl

@[simp] theorem frames_emplaceBack :
    (buffers.emplaceBack frame).frames = buffers.frames ++ [frame] := by
  simp [frames, emplaceBack]

theorem frames_enqueue : (enqueue batchSize frame buffers).frames = buffers.frames ++ [frame] := by
  unfold enqueue
  split
  next => rw [frames_swapPendingUnlocked, frames_emplaceBack]
  next => exact frames_emplaceBack

theorem stop_enqueue : (enqueue batchSize frame buffers).stop = buffers.stop := by
  unfold enqueue
  split
  next => exact stop_swapPendingUnlocked
  next => rfl

/-- Fewer frames than a batch wait for others. -/
theorem pending_enqueue : (enqueue batchSize frame buffers).pending = [] ∨
    (enqueue batchSize frame buffers).pending.length < batchSize := by
  unfold enqueue
  split
  next => exact Or.inl pending_swapPendingUnlocked
  next hlt => exact Or.inr (Nat.not_le.mp hlt)

theorem length_pending_enqueue_le (batchSize : Nat) (frame : Frame) (buffers : Buffers) :
    (enqueue batchSize frame buffers).pending.length ≤ buffers.pending.length + 1 := by
  unfold enqueue
  split
  next => simp
  next => simp [emplaceBack]

@[simp] theorem frames_shutdown : buffers.shutdown.frames = buffers.frames :=
  frames_swapPendingUnlocked

@[simp] theorem pending_shutdown : buffers.shutdown.pending = [] := pending_swapPendingUnlocked

end Buffers

/-- What a step of the worker does. -/
inductive Works (writer : Writer) : Writer → Prop where
  | took {batch rest} (hworker : writer.worker = .looping)
      (hwaiter : writer.monitor.waiter = .awake)
      (hqueue : writer.monitor.data.writeQueue = batch :: rest) :
      Works writer
        { writer with
          monitor := writer.monitor.amend fun buffers => { buffers with writeQueue := rest }
          worker := .writing batch }
  | finished (hworker : writer.worker = .looping) (hwaiter : writer.monitor.waiter = .awake)
      (hqueue : writer.monitor.data.writeQueue = []) (hstop : writer.monitor.data.stop = true) :
      Works writer { writer with worker := .finished }
  | refused (hworker : writer.worker = .looping) (hwaiter : writer.monitor.waiter = .awake)
      (hready : ¬ writer.monitor.data.Ready) :
      Works writer { writer with monitor := writer.monitor.refuse }
  | slept (hworker : writer.worker = .looping) (hwaiter : writer.monitor.waiter = .refused) :
      Works writer { writer with monitor := writer.monitor.sleep }
  | wrote {frame batch} (hworker : writer.worker = .writing (frame :: batch)) :
      Works writer { writer with file := writer.file ++ frame, worker := .writing batch }
  | flushed (hworker : writer.worker = .writing []) :
      Works writer { writer with worker := .looping }
  | asleep (hworker : writer.worker = .looping) (hwaiter : writer.monitor.waiter = .asleep) :
      Works writer writer
  | outside (hworker : writer.worker = .starting ∨ writer.worker = .failed ∨
      writer.worker = .finished) : Works writer writer

theorem work_works (writer : Writer) : Works writer writer.work := by
  unfold Writer.work
  split
  next hworker =>
    split
    next hwaiter =>
      split
      next hready =>
        unfold Writer.takeBatch
        split
        next batch rest hqueue => exact .took hworker hwaiter hqueue
        next hqueue =>
          have hstop := hready.resolve_right fun hne => hne hqueue
          exact .finished hworker hwaiter hqueue hstop
      next hready => exact .refused hworker hwaiter hready
    next hwaiter => exact .slept hworker hwaiter
    next hwaiter => exact .asleep hworker hwaiter
  next hworker => exact .wrote hworker
  next hworker => exact .flushed hworker
  next hworker => exact .outside (Or.inl hworker)
  next hworker => exact .outside (Or.inr (Or.inl hworker))
  next hworker => exact .outside (Or.inr (Or.inr hworker))

/-! ## What holds after every interleaving -/

/-- The frames of the batch that the worker writes. -/
def Worker.frames : Worker → List Frame
  | .writing batch => batch
  | _ => []

namespace Writer

/-- The frames that are not written yet. -/
def queued (writer : Writer) : List Frame :=
  writer.worker.frames ++ writer.monitor.data.frames

structure Sound (batchSize : Nat) (file : List UInt8) (writer : Writer) : Prop where
  size : writer.batchSize = batchSize
  /-- Nothing is lost, written twice or out of order. -/
  written : ∃ done, writer.enqueued = done ++ writer.queued ∧
    writer.file = file ++ done.flatten ∧
    (writer.worker = .finished → ∃ frames, writer.closing = some frames ∧ frames <+: done)
  batched : writer.monitor.data.pending = [] ∨
    writer.monitor.data.pending.length < batchSize
  /-- What `shutdown` found is no longer pending. -/
  handed : ∀ frames, writer.closing = some frames → frames <+: writer.enqueued ∧
    frames.length + writer.monitor.data.pending.length ≤ writer.enqueued.length
  stopped : writer.monitor.data.stop = writer.closing.isSome
  heeds : writer.monitor.Heeds Buffers.Ready
  waiting : writer.monitor.waiter ≠ .awake → writer.worker = .looping

namespace Sound

variable {batchSize : Nat} {file : List UInt8} {writer next : Writer}

theorem start (batchSize : Nat) (file : List UInt8) :
    (start batchSize file).Sound batchSize file where
  size := rfl
  written := ⟨[], rfl, by simp [Writer.start], by simp [Writer.start]⟩
  batched := Or.inl rfl
  handed := by simp [Writer.start]
  stopped := rfl
  heeds := Monitor.Heeds.of_awake rfl
  waiting := by simp [Writer.start]

theorem enqueue (h : writer.Sound batchSize file) (frame : Frame) :
    (writer.enqueue frame).Sound batchSize file := by
  unfold Writer.enqueue
  split
  next => exact h
  next hfree =>
    obtain ⟨done, henqueued, hfile, hfinished⟩ := h.written
    refine
      { size := h.size
        written := ⟨done, ?_, hfile, hfinished⟩
        batched := h.size ▸ Buffers.pending_enqueue
        handed := fun frames hframes => ?_
        stopped := Buffers.stop_enqueue.trans h.stopped
        heeds := Monitor.Heeds.update _ hfree
        waiting := h.waiting }
    · simp only [queued, Monitor.update, Buffers.frames_enqueue] at henqueued ⊢
      rw [henqueued, List.append_assoc, List.append_assoc]
    · obtain ⟨hprefixed, hlength⟩ := h.handed frames hframes
      refine ⟨hprefixed.trans (List.prefix_append _ _), ?_⟩
      have hpending :=
        Buffers.length_pending_enqueue_le writer.batchSize frame writer.monitor.data
      simp only [Monitor.update, List.length_append, List.length_singleton]
      omega

theorem shutdown (h : writer.Sound batchSize file) : writer.shutdown.Sound batchSize file := by
  unfold Writer.shutdown
  split
  next => exact h
  next hfree =>
    obtain ⟨hfree, hstop⟩ := not_or.mp hfree
    obtain ⟨done, henqueued, hfile, hfinished⟩ := h.written
    refine
      { size := h.size
        written := ⟨done, ?_, hfile, fun hworker => ?_⟩
        batched := Or.inl Buffers.pending_shutdown
        handed := fun frames hframes => ?_
        stopped := rfl
        heeds := Monitor.Heeds.update _ hfree
        waiting := h.waiting }
    · simpa only [queued, Monitor.update, Buffers.frames_shutdown] using henqueued
    · obtain ⟨frames, hclosing, -⟩ := hfinished hworker
      exact absurd (h.stopped.trans (by rw [hclosing]; rfl)) hstop
    · obtain rfl := Option.some.inj hframes
      exact ⟨List.prefix_rfl, by simp [Monitor.update]⟩

theorem openFile (h : writer.Sound batchSize file) (isOpen : Bool) :
    (writer.openFile isOpen).Sound batchSize file := by
  unfold Writer.openFile
  split
  next hstarting =>
    obtain ⟨done, henqueued, hfile, -⟩ := h.written
    refine { h with
      written := ⟨done, ?_, hfile, by cases isOpen <;> simp⟩
      waiting := fun hwaiter => absurd (hstarting.symm.trans (h.waiting hwaiter)) (by simp) }
    rw [queued, hstarting] at henqueued
    cases isOpen <;> exact henqueued
  next => exact h

/-- What changes only who is awake. -/
theorem monitor (h : writer.Sound batchSize file) {monitor : Monitor Buffers}
    (hdata : monitor.data = writer.monitor.data) (hheeds : monitor.Heeds Buffers.Ready)
    (hwaiting : monitor.waiter ≠ .awake → writer.worker = .looping) :
    Sound batchSize file { writer with monitor := monitor } where
  size := h.size
  written := by
    obtain ⟨done, henqueued, hfile, hfinished⟩ := h.written
    exact ⟨done, by simpa only [queued, hdata] using henqueued, hfile, hfinished⟩
  batched := by simpa only [hdata] using h.batched
  handed := by simpa only [hdata] using h.handed
  stopped := by simpa only [hdata] using h.stopped
  heeds := hheeds
  waiting := hwaiting

theorem works (h : writer.Sound batchSize file) (hnext : Works writer next) :
    next.Sound batchSize file := by
  obtain ⟨done, henqueued, hfile, hfinished⟩ := h.written
  cases hnext with
  | took hworker hwaiter hqueue =>
      refine { h with
        written := ⟨done, ?_, hfile, by simp⟩
        heeds := Monitor.Heeds.of_awake hwaiter
        waiting := fun hne => absurd hwaiter hne }
      simpa [queued, hworker, Worker.frames, Buffers.frames, hqueue, Monitor.amend] using henqueued
  | finished hworker hwaiter hqueue hstop =>
      have hsome := h.stopped.symm.trans hstop
      obtain ⟨frames, hclosing⟩ := Option.isSome_iff_exists.mp hsome
      obtain ⟨hprefixed, hlength⟩ := h.handed frames hclosing
      simp only [queued, hworker, Worker.frames, Buffers.frames, hqueue, List.flatten_nil,
        List.nil_append] at henqueued
      refine { h with
        written := ⟨done, ?_, hfile, fun _ => ⟨frames, hclosing, ?_⟩⟩
        waiting := fun hne => absurd hwaiter hne }
      · simpa [queued, Worker.frames, Buffers.frames, hqueue] using henqueued
      · rw [henqueued] at hprefixed
        rw [henqueued, List.length_append] at hlength
        exact List.prefix_of_prefix_length_le hprefixed (List.prefix_append _ _) (by omega)
  | refused hworker hwaiter hready =>
      exact h.monitor rfl (Monitor.Heeds.refuse hready) fun _ => hworker
  | slept hworker hwaiter => exact h.monitor rfl (h.heeds.sleep hwaiter) fun _ => hworker
  | @wrote frame batch hworker =>
      have hawake : writer.monitor.waiter = .awake := by
        by_contra hne
        exact absurd (hworker.symm.trans (h.waiting hne)) (by simp)
      refine { h with
        written := ⟨done ++ [frame], ?_, ?_, by simp⟩
        waiting := fun hne => absurd hawake hne }
      · simpa [queued, hworker, Worker.frames] using henqueued
      · simp [hfile]
  | flushed hworker =>
      refine { h with
        written := ⟨done, ?_, hfile, by simp⟩
        waiting := fun _ => rfl }
      simpa [queued, hworker, Worker.frames] using henqueued
  | asleep => exact h
  | outside => exact h

theorem step (h : writer.Sound batchSize file) (label : Label) :
    (writer.step label).Sound batchSize file := by
  cases label with
  | enqueue frame => exact h.enqueue frame
  | shutdown => exact h.shutdown
  | notify =>
      exact h.monitor Monitor.data_notify h.heeds.notify fun hwaiter =>
        h.waiting fun hawake => hwaiter (Monitor.waiter_notify hawake)
  | rouse =>
      exact h.monitor Monitor.data_rouse h.heeds.rouse fun hwaiter =>
        h.waiting fun hawake => hwaiter (Monitor.waiter_rouse hawake)
  | openFile isOpen => exact h.openFile isOpen
  | work => exact h.works (work_works writer)

theorem run (batchSize : Nat) (file : List UInt8) (labels : List Label) :
    (run Writer.step (Writer.start batchSize file) labels).Sound batchSize file :=
  run_invariant Writer.step (Sound batchSize file) (fun _ label h => h.step label) labels
    (start batchSize file)

end Sound

end Writer

/-- However the threads interleave, the file holds what it held before and then, in the order of
the critical sections, a beginning of what was enqueued; once the worker that `shutdown` joins has
ended, every frame enqueued before `shutdown` is in it. -/
theorem written_in_order (batchSize : Nat) (file : List UInt8) (labels : List Label) :
    let writer := run Writer.step (Writer.start batchSize file) labels
    file <+: writer.file ∧ writer.file <+: file ++ writer.enqueued.flatten ∧
      (writer.worker = .finished →
        ∃ frames, writer.closing = some frames ∧ file ++ frames.flatten <+: writer.file) := by
  intro writer
  have h : writer.Sound batchSize file := Writer.Sound.run batchSize file labels
  obtain ⟨done, henqueued, hfile, hfinished⟩ := h.written
  rw [hfile, henqueued, List.flatten_append]
  refine ⟨List.prefix_append _ _, ?_, fun hworker => ?_⟩
  · rw [← List.append_assoc]
    exact List.prefix_append _ _
  · obtain ⟨frames, hclosing, more, rfl⟩ := hfinished hworker
    refine ⟨frames, hclosing, ?_⟩
    rw [List.flatten_append, ← List.append_assoc]
    exact List.prefix_append _ _

/-- No wakeup is lost: when the worker sleeps and no notification is on its way, everything that
was enqueued is in the file except the newest frames, fewer than make a batch, and `shutdown` has
not been called. -/
theorem asleep_written (batchSize : Nat) (file : List UInt8) (labels : List Label)
    (hasleep : (run Writer.step (Writer.start batchSize file) labels).monitor.waiter = .asleep)
    (hnotices : (run Writer.step (Writer.start batchSize file) labels).monitor.notices = 0) :
    let writer := run Writer.step (Writer.start batchSize file) labels
    writer.closing = none ∧
      ∃ done late, writer.enqueued = done ++ late ∧ writer.file = file ++ done.flatten ∧
        (late = [] ∨ late.length < batchSize) := by
  intro writer
  have h : writer.Sound batchSize file := Writer.Sound.run batchSize file labels
  have hready := h.heeds.not_ready hasleep hnotices
  have hworker : writer.worker = .looping := h.waiting (by rw [hasleep]; simp)
  have hstop : writer.monitor.data.stop = false :=
    Bool.eq_false_iff.mpr fun hstop => hready (Or.inl hstop)
  have hqueue : writer.monitor.data.writeQueue = [] := not_not.mp fun hne => hready (Or.inr hne)
  obtain ⟨done, henqueued, hfile, -⟩ := h.written
  refine ⟨Option.isNone_iff_eq_none.mp ?_, done, writer.monitor.data.pending, ?_, hfile, h.batched⟩
  · rw [← Option.not_isSome, ← h.stopped, hstop]
    rfl
  · simpa [Writer.queued, hworker, Worker.frames, Buffers.frames, hqueue] using henqueued

/-- A batch of two is written, and a third frame is enqueued before the worker sleeps. -/
def oneBatch : List Label :=
  [.openFile true, .enqueue [1], .notify, .enqueue [2], .notify, .work, .work, .work, .work,
    .enqueue [3], .notify, .work, .work]

theorem asleep_written_one :
    let writer := run Writer.step (Writer.start 2 [9]) oneBatch
    writer.file = [9, 1, 2] ∧ writer.closing = none ∧
      ∃ done late, writer.enqueued = done ++ late ∧ writer.file = [9] ++ done.flatten ∧
        (late = [] ∨ late.length < 2) :=
  ⟨by decide, asleep_written 2 [9] oneBatch (by decide) (by decide)⟩

/-! ## The end of the worker -/

/-- The worker got past opening the file. -/
def Worker.Opened (worker : Worker) : Prop := worker ≠ .starting ∧ worker ≠ .failed

instance : DecidablePred Worker.Opened := fun _ => inferInstanceAs (Decidable (_ ∧ _))

/-- The steps that batches of these sizes take: to fetch one, for each frame, and to flush. -/
def Buffers.work (buffers : Buffers) : Nat :=
  (buffers.writeQueue.map fun batch => batch.length + 2).sum

namespace Writer

/-- How many steps the worker has left when it is told to stop. -/
def budget (writer : Writer) : Nat :=
  match writer.worker with
  | .looping => writer.monitor.data.work + 1
  | .writing batch => batch.length + 1 + (writer.monitor.data.work + 1)
  | _ => 0

/-- The worker is told to stop, and does not sleep. -/
structure Stopping (writer : Writer) : Prop where
  stop : writer.monitor.data.stop = true
  awake : writer.monitor.waiter = .awake
  opened : writer.worker.Opened

namespace Stopping

variable {writer next : Writer}

theorem finished_of_budget (h : writer.Stopping) (hbudget : writer.budget = 0) :
    writer.worker = .finished := by
  obtain ⟨hstarting, hfailed⟩ := h.opened
  unfold budget at hbudget
  cases hworker : writer.worker with
  | starting => exact absurd hworker hstarting
  | failed => exact absurd hworker hfailed
  | looping => simp [hworker] at hbudget
  | writing batch => simp [hworker] at hbudget
  | finished => rfl

theorem works (h : writer.Stopping) (hnext : Works writer next) :
    next.Stopping ∧ next.budget ≤ writer.budget - 1 := by
  cases hnext with
  | took hworker hwaiter hqueue =>
      refine ⟨⟨h.stop, hwaiter, by simp [Worker.Opened]⟩, ?_⟩
      simp only [budget, hworker, Monitor.amend, Buffers.work, hqueue, List.map_cons, List.sum_cons]
      omega
  | finished hworker hwaiter hqueue hstop =>
      exact ⟨⟨hstop, hwaiter, by simp [Worker.Opened]⟩, Nat.zero_le _⟩
  | refused hworker hwaiter hready => exact absurd (Or.inl h.stop) hready
  | slept hworker hwaiter => exact absurd (h.awake.symm.trans hwaiter) (by simp)
  | wrote hworker =>
      refine ⟨⟨h.stop, h.awake, by simp [Worker.Opened]⟩, ?_⟩
      simp only [budget, hworker, List.length_cons]
      omega
  | flushed hworker =>
      refine ⟨⟨h.stop, h.awake, by simp [Worker.Opened]⟩, ?_⟩
      simp only [budget, hworker, List.length_nil]
      omega
  | asleep hworker hwaiter => exact absurd (h.awake.symm.trans hwaiter) (by simp)
  | outside hworker =>
      rcases hworker with hworker | hworker | hworker
      · exact absurd hworker h.opened.1
      · exact absurd hworker h.opened.2
      · exact ⟨h, by simp [budget, hworker]⟩

/-- The worker ends when it is given as many steps as it has left. -/
theorem run_finished {count : Nat} (h : writer.Stopping) (hcount : writer.budget ≤ count) :
    (run Writer.step writer (List.replicate count .work)).worker = .finished := by
  induction count generalizing writer with
  | zero => exact h.finished_of_budget (Nat.le_zero.mp hcount)
  | succ count ih =>
      obtain ⟨hnext, hbudget⟩ := h.works (work_works writer)
      exact ih hnext (hbudget.trans (by omega))

end Stopping

/-- The notification that `shutdown` owes wakes the worker. -/
theorem Sound.notify_stopping {batchSize : Nat} {file : List UInt8} {writer : Writer}
    (h : writer.Sound batchSize file) (hcalled : writer.closing ≠ none)
    (hopened : writer.worker.Opened) : (writer.step .notify).Stopping := by
  have hstop : writer.monitor.data.stop = true :=
    h.stopped.trans (Option.isSome_iff_ne_none.mpr hcalled)
  refine ⟨?_, h.heeds.notify_awake (Or.inl hstop), hopened⟩
  simpa [Writer.step] using hstop

theorem budget_notify (writer : Writer) : (writer.step .notify).budget = writer.budget := by
  simp [Writer.step, budget]

end Writer

/-- `shutdown` does not wait for ever: in every state that is reached after it was called, the
worker, if it could open the file, ends after so many steps of its own once the notification is
made, even if it was asleep when `stop` was set. -/
theorem shutdown_joins (batchSize : Nat) (file : List UInt8) (labels : List Label)
    (hcalled : (run Writer.step (Writer.start batchSize file) labels).closing ≠ none)
    (hopened : (run Writer.step (Writer.start batchSize file) labels).worker.Opened)
    {count : Nat}
    (hcount : (run Writer.step (Writer.start batchSize file) labels).budget ≤ count) :
    (run Writer.step (Writer.start batchSize file)
      (labels ++ .notify :: List.replicate count .work)).worker = .finished := by
  have h := Writer.Sound.run batchSize file labels
  rw [run_append, run_cons]
  refine (h.notify_stopping hcalled hopened).run_finished ?_
  rw [Writer.budget_notify]
  exact hcount

theorem shutdown_joins_three :
    (run Writer.step (Writer.start 2 [])
      ([.openFile true, .work, .work, .enqueue [1], .enqueue [2], .notify, .work, .enqueue [3],
        .shutdown] ++ .notify :: List.replicate 7 .work)).worker = .finished :=
  shutdown_joins 2 [] [.openFile true, .work, .work, .enqueue [1], .enqueue [2], .notify, .work,
    .enqueue [3], .shutdown] (by decide) (by decide) (by decide)

end AcflyRos.OdinDriver.DataLogger

import AcflyRos.Foundation.Monitors
import AcflyRos.Foundation.Queues
import AcflyRos.Foundation.Transition

/-! # The queue of the IMU thread

The data callback of the driver (`lidar_data_callback`) queues IMU samples for a thread of their
own (`imu_thread_routine`), which publishes them. The device callback starts and stops that
thread (`start_imu_thread`, `stop_imu_thread`). The queue is behind a mutex; the flag
`g_imu_thread_running`, which the thread waits for as well, is atomic and is cleared without it. The
handler of a signal stops the thread as well, from a thread of its own: runs are those before that.
-/

namespace AcflyRos.OdinDriver.ImuQueue

open AcflyRos.Transition AcflyRos.Monitors AcflyRos.Queues

universe u

variable {α : Type u}

/-- `IMU_QUEUE_MAX_SIZE` -/
def imuQueueMaxSize : Nat := 8000

theorem imuQueueMaxSize_pos : 0 < imuQueueMaxSize := by decide

/-- What the thread waits for: `g_imu_queue`, `g_imu_thread_running`. -/
structure Shared (α : Type u) where
  queue : List α := []
  running : Bool := false
  deriving DecidableEq, Repr

namespace Shared

def Ready (shared : Shared α) : Prop := shared.queue ≠ [] ∨ shared.running = false

instance (shared : Shared α) : Decidable shared.Ready := inferInstanceAs (Decidable (_ ∨ _))

def push (sample : α) (shared : Shared α) : Shared α :=
  { shared with queue := pushBounded imuQueueMaxSize shared.queue sample }

def clear (shared : Shared α) : Shared α := { shared with queue := [] }

def setRunning (running : Bool) (shared : Shared α) : Shared α := { shared with running }

end Shared

/-- Where the IMU thread is in `imu_thread_routine`. -/
inductive Thread (α : Type u) where
  /-- There is none, or it was joined. -/
  | absent
  /-- About to read the flag at the head of the loop. -/
  | top
  /-- In `wait`. -/
  | waiting
  /-- Past `wait`, with the mutex. -/
  | entered
  /-- About to read the queue and the flag, with the mutex from `wait` or without it. -/
  | draining (held : Bool)
  /-- Publishing a sample it has popped, without the mutex. -/
  | publishing (sample : α)
  | exited
  deriving DecidableEq, Repr

/-- Joining it does not wait. -/
def Thread.joined : Thread α → Bool
  | .absent | .exited => true
  | _ => false

/-- Where the device callback is in `stop_imu_thread`. -/
inductive Control where
  | idle
  /-- The flag is cleared. -/
  | joining
  /-- About to clear the queue. -/
  | clearing
  deriving DecidableEq, Repr

def Control.isIdle : Control → Bool
  | .idle => true
  | _ => false

structure Driver (α : Type u) where
  monitor : Monitor (Shared α) := { data := {} }
  thread : Thread α := .absent
  control : Control := .idle
  /-- What the data callback has queued so far. -/
  received : List α := []
  /-- The calls of `publishImu`, in order. -/
  published : List α := []
  deriving DecidableEq, Repr

inductive Label (α : Type u) where
  /-- `LIDAR_DT_RAW_IMU` -/
  | receive (sample : α)
  | notify
  /-- A spurious wakeup. -/
  | rouse
  /-- What the IMU thread does next. -/
  | work
  | start
  | stop
  /-- What `stop_imu_thread` does next. -/
  | join
  | clearAllQueues
  deriving DecidableEq, Repr

namespace Driver

/-- The IMU thread has the mutex between two steps. -/
def held (driver : Driver α) : Bool :=
  driver.monitor.waiter == .refused ||
    match driver.thread with
    | .entered => true
    | .draining held => held
    | _ => false

/-- The next step of `imu_thread_routine`. -/
def work (driver : Driver α) : Driver α :=
  match driver.thread with
  | .top =>
      { driver with thread := if driver.monitor.data.running then .waiting else .exited }
  | .waiting =>
      match driver.monitor.waiter with
      | .awake =>
          if driver.monitor.data.Ready then { driver with thread := .entered }
          else { driver with monitor := driver.monitor.refuse }
      | .refused => { driver with monitor := driver.monitor.sleep }
      | .asleep => driver
  | .entered =>
      { driver with thread := if driver.monitor.data.running then .draining true else .exited }
  | .draining _ =>
      match driver.monitor.data.queue with
      | sample :: queue =>
          if driver.monitor.data.running then
            { driver with
              monitor := driver.monitor.amend fun shared => { shared with queue }
              thread := .publishing sample }
          else { driver with thread := .top }
      | [] => { driver with thread := .top }
  | .publishing sample =>
      { driver with thread := .draining false, published := driver.published ++ [sample] }
  | .absent | .exited => driver

/-- `LIDAR_DT_RAW_IMU`; a thread that finds the mutex taken waits for it. -/
def receive (driver : Driver α) (sample : α) : Driver α :=
  if driver.held then driver
  else
    { driver with
      monitor := driver.monitor.update (Shared.push sample)
      received := driver.received ++ [sample] }

/-- `start_imu_thread` -/
def start (driver : Driver α) : Driver α :=
  if driver.control.isIdle && ! driver.monitor.data.running && driver.thread.joined then
    { driver with
      monitor := driver.monitor.amend (Shared.setRunning true)
      thread := .top }
  else driver

/-- `stop_imu_thread` up to the notification, which is due from then on. -/
def stop (driver : Driver α) : Driver α :=
  if driver.control.isIdle && driver.monitor.data.running then
    { driver with
      monitor := driver.monitor.update (Shared.setRunning false)
      control := .joining }
  else driver

/-- The rest of `stop_imu_thread`. -/
def join (driver : Driver α) : Driver α :=
  match driver.control with
  | .idle => driver
  | .joining =>
      if driver.thread.joined then { driver with thread := .absent, control := .clearing }
      else driver
  | .clearing =>
      if driver.held then driver
      else { driver with monitor := driver.monitor.amend Shared.clear, control := .idle }

def clearAllQueues (driver : Driver α) : Driver α :=
  if driver.control.isIdle && ! driver.held then
    { driver with monitor := driver.monitor.amend Shared.clear }
  else driver

def step (driver : Driver α) : Label α → Driver α
  | .receive sample => driver.receive sample
  | .notify => { driver with monitor := driver.monitor.notify }
  | .rouse => { driver with monitor := driver.monitor.rouse }
  | .work => driver.work
  | .start => driver.start
  | .stop => driver.stop
  | .join => driver.join
  | .clearAllQueues => driver.clearAllQueues

end Driver

/-- What a step of the IMU thread does. -/
inductive Works (driver : Driver α) : Driver α → Prop where
  | went (hthread : driver.thread = .top) (hrunning : driver.monitor.data.running = true) :
      Works driver { driver with thread := .waiting }
  | left (hthread : driver.thread = .top ∨ driver.thread = .entered)
      (hrunning : driver.monitor.data.running = false) :
      Works driver { driver with thread := .exited }
  | entered (hthread : driver.thread = .waiting) (hwaiter : driver.monitor.waiter = .awake)
      (hready : driver.monitor.data.Ready) : Works driver { driver with thread := .entered }
  | refused (hthread : driver.thread = .waiting) (hwaiter : driver.monitor.waiter = .awake)
      (hready : ¬ driver.monitor.data.Ready) :
      Works driver { driver with monitor := driver.monitor.refuse }
  | slept (hthread : driver.thread = .waiting) (hwaiter : driver.monitor.waiter = .refused) :
      Works driver { driver with monitor := driver.monitor.sleep }
  | asleep (hthread : driver.thread = .waiting) (hwaiter : driver.monitor.waiter = .asleep) :
      Works driver driver
  | began (hthread : driver.thread = .entered) (hrunning : driver.monitor.data.running = true) :
      Works driver { driver with thread := .draining true }
  | popped {held sample queue} (hthread : driver.thread = .draining held)
      (hqueue : driver.monitor.data.queue = sample :: queue)
      (hrunning : driver.monitor.data.running = true) :
      Works driver
        { driver with
          monitor := driver.monitor.amend fun shared => { shared with queue }
          thread := .publishing sample }
  | drained {held} (hthread : driver.thread = .draining held)
      (hdone : driver.monitor.data.queue = [] ∨ driver.monitor.data.running = false) :
      Works driver { driver with thread := .top }
  | published {sample} (hthread : driver.thread = .publishing sample) :
      Works driver
        { driver with
          thread := .draining false
          published := driver.published ++ [sample] }
  | outside (hthread : driver.thread = .absent ∨ driver.thread = .exited) : Works driver driver

theorem work_works (driver : Driver α) : Works driver driver.work := by
  unfold Driver.work
  split
  next hthread =>
    split
    next hrunning => exact .went hthread hrunning
    next hrunning => exact .left (Or.inl hthread) (Bool.eq_false_iff.mpr hrunning)
  next hthread =>
    split
    next hwaiter =>
      split
      next hready => exact .entered hthread hwaiter hready
      next hready => exact .refused hthread hwaiter hready
    next hwaiter => exact .slept hthread hwaiter
    next hwaiter => exact .asleep hthread hwaiter
  next hthread =>
    split
    next hrunning => exact .began hthread hrunning
    next hrunning => exact .left (Or.inr hthread) (Bool.eq_false_iff.mpr hrunning)
  next hthread =>
    split
    next hqueue =>
      split
      next hrunning => exact .popped hthread hqueue hrunning
      next hrunning => exact .drained hthread (Or.inr (Bool.eq_false_iff.mpr hrunning))
    next hqueue => exact .drained hthread (Or.inl hqueue)
  next hthread => exact .published hthread
  next hthread => exact .outside (Or.inl hthread)
  next hthread => exact .outside (Or.inr hthread)

/-! ## Order -/

/-- The sample that has left the queue and is not published yet. -/
def Thread.inFlight : Thread α → List α
  | .publishing sample => [sample]
  | _ => []

theorem Thread.inFlight_of_joined {thread : Thread α} (hjoined : thread.joined = true) :
    thread.inFlight = [] := by
  cases thread <;> simp [Thread.joined, Thread.inFlight] at hjoined ⊢

namespace Driver

/-- What was received and published since a state in which the queue was empty and no sample was
in flight. -/
structure Ordered (received published : List α) (driver : Driver α) : Prop where
  bound : driver.monitor.data.queue.length ≤ imuQueueMaxSize
  order : ∃ gone taken, driver.received = received ++ (gone ++ driver.monitor.data.queue) ∧
    driver.published = published ++ taken ∧ (taken ++ driver.thread.inFlight).Sublist gone

namespace Ordered

variable {received published : List α} {driver next : Driver α}

/-- What touches neither the queue nor the sample in flight. -/
theorem of_same (h : driver.Ordered received published)
    (hqueue : next.monitor.data.queue = driver.monitor.data.queue)
    (hthread : next.thread.inFlight = driver.thread.inFlight)
    (hreceived : next.received = driver.received) (hpublished : next.published = driver.published) :
    next.Ordered received published where
  bound := hqueue ▸ h.bound
  order := by simpa only [hqueue, hthread, hreceived, hpublished] using h.order

theorem receive (h : driver.Ordered received published) (sample : α) :
    (driver.receive sample).Ordered received published := by
  unfold Driver.receive
  split
  next => exact h
  next =>
    refine ⟨length_pushBounded_le imuQueueMaxSize_pos h.bound, ?_⟩
    obtain ⟨gone, taken, hreceived, hpublished, horder⟩ := h.order
    rcases pushBounded_cases imuQueueMaxSize_pos driver.monitor.data.queue sample with
      hpush | ⟨front, rest, hqueue, hpush⟩
    · refine ⟨gone, taken, ?_, hpublished, horder⟩
      simp only [Monitor.update, Shared.push, hpush, hreceived, List.append_assoc]
    · -- The oldest sample makes room.
      refine ⟨gone ++ [front], taken, ?_, hpublished,
        horder.trans (List.sublist_append_left gone [front])⟩
      simp only [Monitor.update, Shared.push, hpush]
      simp [hreceived, hqueue]

theorem clear (h : driver.Ordered received published) :
    Ordered received published
      { driver with monitor := driver.monitor.amend Shared.clear } := by
  obtain ⟨gone, taken, hreceived, hpublished, horder⟩ := h.order
  refine ⟨Nat.zero_le _, gone ++ driver.monitor.data.queue, taken, ?_, hpublished,
    horder.trans (List.sublist_append_left gone _)⟩
  simp [Monitor.amend, Shared.clear, hreceived]

theorem works (h : driver.Ordered received published) (hnext : Works driver next) :
    next.Ordered received published := by
  obtain ⟨gone, taken, hreceived, hpublished, horder⟩ := h.order
  cases hnext with
  | went hthread => exact h.of_same rfl (by simp [hthread, Thread.inFlight]) rfl rfl
  | left hthread =>
      refine h.of_same rfl ?_ rfl rfl
      rcases hthread with hthread | hthread <;> simp [hthread, Thread.inFlight]
  | entered hthread => exact h.of_same rfl (by simp [hthread, Thread.inFlight]) rfl rfl
  | refused => exact h.of_same rfl rfl rfl rfl
  | slept => exact h.of_same rfl rfl rfl rfl
  | asleep => exact h
  | began hthread => exact h.of_same rfl (by simp [hthread, Thread.inFlight]) rfl rfl
  | @popped held sample queue hthread hqueue hrunning =>
      have hbound := h.bound
      rw [hqueue, List.length_cons] at hbound
      refine ⟨Nat.le_of_succ_le hbound, gone ++ [sample], taken, ?_, hpublished, ?_⟩
      · simp [Monitor.amend, hreceived, hqueue]
      · rw [hthread] at horder
        have hmore := horder.append_right [sample]
        simpa [Thread.inFlight] using hmore
  | drained hthread => exact h.of_same rfl (by simp [hthread, Thread.inFlight]) rfl rfl
  | @published sample hthread =>
      refine ⟨h.bound, gone, taken ++ [sample], hreceived, ?_, ?_⟩
      · simp [hpublished]
      · simpa [hthread, Thread.inFlight] using horder
  | outside => exact h

theorem start (h : driver.Ordered received published) :
    driver.start.Ordered received published := by
  unfold Driver.start
  split
  next hstart =>
    simp only [Bool.and_eq_true] at hstart
    exact h.of_same rfl (Thread.inFlight_of_joined hstart.2).symm rfl rfl
  next => exact h

theorem stop (h : driver.Ordered received published) :
    driver.stop.Ordered received published := by
  unfold Driver.stop
  split
  next => exact h.of_same rfl rfl rfl rfl
  next => exact h

theorem join (h : driver.Ordered received published) :
    driver.join.Ordered received published := by
  unfold Driver.join
  split
  next => exact h
  next =>
    split
    next hjoined => exact h.of_same rfl (Thread.inFlight_of_joined hjoined).symm rfl rfl
    next => exact h
  next =>
    split
    next => exact h
    next => exact h.clear.of_same rfl rfl rfl rfl

theorem clearAllQueues (h : driver.Ordered received published) :
    driver.clearAllQueues.Ordered received published := by
  unfold Driver.clearAllQueues
  split
  next => exact h.clear
  next => exact h

theorem step (h : driver.Ordered received published) (label : Label α) :
    (driver.step label).Ordered received published := by
  cases label with
  | receive sample => exact h.receive sample
  | notify => exact h.of_same (congrArg Shared.queue Monitor.data_notify) rfl rfl rfl
  | rouse => exact h.of_same rfl rfl rfl rfl
  | work => exact h.works (work_works driver)
  | start => exact h.start
  | stop => exact h.stop
  | join => exact h.join
  | clearAllQueues => exact h.clearAllQueues

theorem run (h : driver.Ordered received published) (labels : List (Label α)) :
    (run Driver.step driver labels).Ordered received published :=
  run_invariant Driver.step (Ordered received published) (fun _ label h => h.step label) labels h

theorem initial : ({} : Driver α).Ordered [] [] :=
  ⟨Nat.zero_le _, [], [], rfl, rfl, List.Sublist.refl _⟩

/-- Counting from here. -/
theorem again (hbound : driver.monitor.data.queue = []) (hflight : driver.thread.inFlight = []) :
    driver.Ordered driver.received driver.published :=
  ⟨by simp [hbound], [], [], by simp [hbound], by simp, by simp [hflight]⟩

end Ordered

end Driver

/-- However the threads interleave, the samples are published in the order in which they were
received, each at most once, and the queue stays within its limit. -/
theorem published_in_order (labels : List (Label α)) :
    let driver := run Driver.step {} labels
    driver.published.Sublist driver.received ∧
      driver.monitor.data.queue.length ≤ imuQueueMaxSize := by
  intro driver
  have h : driver.Ordered [] [] := Driver.Ordered.initial.run labels
  obtain ⟨gone, taken, hreceived, hpublished, horder⟩ := h.order
  refine ⟨?_, h.bound⟩
  rw [hreceived, hpublished]
  exact ((List.sublist_append_left _ _).trans horder).trans (List.sublist_append_left _ _)

/-- Nothing is displaced from a full queue or cleared. -/
def Lossless (driver : Driver α) : Label α → Prop
  | .receive _ => driver.monitor.data.queue.length < imuQueueMaxSize
  | .join => driver.control ≠ .clearing
  | .clearAllQueues => False
  | _ => True

instance (driver : Driver α) : ∀ label, Decidable (Lossless driver label)
  | .receive _ => inferInstanceAs (Decidable (_ < _))
  | .join => inferInstanceAs (Decidable (_ ≠ _))
  | .clearAllQueues => isFalse not_false
  | .notify | .rouse | .work | .start | .stop => isTrue trivial

namespace Driver

/-- Every sample is published, in flight or in the queue. -/
def Complete (driver : Driver α) : Prop :=
  driver.received = driver.published ++ driver.thread.inFlight ++ driver.monitor.data.queue

namespace Complete

variable {driver next : Driver α}

theorem works (h : driver.Complete) (hnext : Works driver next) : next.Complete := by
  unfold Complete at h
  cases hnext with
  | left hthread =>
      rcases hthread with hthread | hthread <;>
        simpa [Complete, hthread, Thread.inFlight] using h
  | refused => exact h
  | slept => exact h
  | asleep => exact h
  | popped hthread hqueue =>
      simpa [Complete, hthread, hqueue, Thread.inFlight, Monitor.amend] using h
  | outside => exact h
  | went hthread => simpa [Complete, hthread, Thread.inFlight] using h
  | entered hthread => simpa [Complete, hthread, Thread.inFlight] using h
  | began hthread => simpa [Complete, hthread, Thread.inFlight] using h
  | drained hthread => simpa [Complete, hthread, Thread.inFlight] using h
  | published hthread => simpa [Complete, hthread, Thread.inFlight] using h

theorem step (h : driver.Complete) (label : Label α) (hlossless : Lossless driver label) :
    (driver.step label).Complete := by
  cases label with
  | receive sample =>
      simp only [Driver.step, Driver.receive]
      split
      next => exact h
      next =>
        unfold Complete at h ⊢
        simp only [Monitor.update, Shared.push, pushBounded_of_lt hlossless, h, List.append_assoc]
  | notify => simpa [Complete, Driver.step] using h
  | rouse => simpa [Complete, Driver.step] using h
  | work => exact h.works (work_works driver)
  | start =>
      simp only [Driver.step, Driver.start]
      split
      next hstart =>
        simp only [Bool.and_eq_true] at hstart
        rw [Complete, Thread.inFlight_of_joined hstart.2] at h
        exact h
      next => exact h
  | stop =>
      simp only [Driver.step, Driver.stop]
      split <;> exact h
  | join =>
      simp only [Driver.step, Driver.join]
      split
      next => exact h
      next =>
        split
        next hjoined =>
          rw [Complete, Thread.inFlight_of_joined hjoined] at h
          exact h
        next => exact h
      next hclearing => exact absurd hclearing hlossless
  | clearAllQueues => exact hlossless.elim

end Complete

end Driver

/-- Samples are lost only to a full queue and to a stop: in a run without these, what is published,
in flight and in the queue is exactly what was received. -/
theorem published_completely {labels : List (Label α)}
    (hlossless : EveryStep Driver.step Lossless {} labels) :
    let driver := run Driver.step {} labels
    driver.received = driver.published ++ driver.thread.inFlight ++ driver.monitor.data.queue :=
  run_keeps Driver.step Driver.Complete (fun _ label h hlossless => h.step label hlossless) rfl
    hlossless

theorem published_completely_two :
    let driver := run Driver.step {} [.start, .receive 1, .work, .work, .work, .work, .receive 2]
    driver.received = driver.published ++ driver.thread.inFlight ++ driver.monitor.data.queue :=
  published_completely (by decide)

/-! ## The thread and its flag -/

namespace Driver

structure Consistent (driver : Driver α) : Prop where
  waiting : driver.monitor.waiter ≠ .awake → driver.thread = .waiting
  live : driver.monitor.data.running = true →
    driver.control = .idle ∧ driver.thread.joined = false
  idle : driver.control = .idle → driver.monitor.data.running = false →
    driver.thread.joined = true
  clearing : driver.control = .clearing → driver.thread.joined = true
  /-- No sample is forgotten. -/
  heeds : driver.monitor.Heeds fun shared => shared.queue ≠ []

namespace Consistent

variable {driver next : Driver α}

theorem initial : ({} : Driver α).Consistent where
  waiting := by simp
  live := by simp
  idle _ _ := rfl
  clearing := by simp
  heeds := Monitor.Heeds.of_awake rfl

theorem awake (h : driver.Consistent) (hthread : driver.thread ≠ .waiting) :
    driver.monitor.waiter = .awake := by
  by_contra hwaiter
  exact hthread (h.waiting hwaiter)

theorem waiter_ne_refused (hheld : ¬ driver.held = true) : driver.monitor.waiter ≠ .refused := by
  rintro hrefused
  simp [Driver.held, hrefused] at hheld

theorem receive (h : driver.Consistent) (sample : α) : (driver.receive sample).Consistent := by
  unfold Driver.receive
  split
  next => exact h
  next hheld =>
    exact { h with heeds := Monitor.Heeds.update _ (waiter_ne_refused hheld) }

theorem clear (h : driver.Consistent) :
    Consistent { driver with monitor := driver.monitor.amend Shared.clear } :=
  { h with heeds := h.heeds.amend_of_imp (by simp [Shared.clear]) }

theorem clearAllQueues (h : driver.Consistent) : driver.clearAllQueues.Consistent := by
  unfold Driver.clearAllQueues
  split
  next => exact h.clear
  next => exact h

theorem start (h : driver.Consistent) : driver.start.Consistent := by
  unfold Driver.start
  split
  next hstart =>
    simp only [Bool.and_eq_true] at hstart
    obtain ⟨⟨hidle, -⟩, hjoined⟩ := hstart
    have hcontrol : driver.control = .idle := by
      cases hcontrol : driver.control <;> simp [hcontrol, Control.isIdle] at hidle ⊢
    have hthread : driver.thread ≠ .waiting := by
      intro hwaiting
      simp [hwaiting, Thread.joined] at hjoined
    refine
      { waiting := fun hwaiter => absurd (h.awake hthread) hwaiter
        live := fun _ => ⟨hcontrol, rfl⟩
        idle := fun _ hrunning => absurd hrunning (by simp [Monitor.amend, Shared.setRunning])
        clearing := fun hclearing => absurd (hcontrol.symm.trans hclearing) (by simp)
        heeds := h.heeds.amend_of_imp fun hready => hready }
  next => exact h

theorem stop (h : driver.Consistent) : driver.stop.Consistent := by
  unfold Driver.stop
  split
  next =>
    exact
      { waiting := h.waiting
        live := by simp [Monitor.update, Shared.setRunning]
        idle := by simp
        clearing := by simp
        heeds := h.heeds.update_of_imp fun hready => hready }
  next => exact h

theorem join (h : driver.Consistent) : driver.join.Consistent := by
  unfold Driver.join
  split
  next => exact h
  next hcontrol =>
    split
    next hjoined =>
      have hthread : driver.thread ≠ .waiting := by
        intro hwaiting
        simp [hwaiting, Thread.joined] at hjoined
      exact
        { waiting := fun hwaiter => absurd (h.awake hthread) hwaiter
          live := fun hrunning => absurd (h.live hrunning).1 (by simp [hcontrol])
          idle := fun _ _ => rfl
          clearing := fun _ => rfl
          heeds := h.heeds }
    next => exact h
  next hcontrol =>
    split
    next => exact h
    next =>
      exact { h.clear with
        live := fun hrunning => absurd (h.live hrunning).1 (by simp [hcontrol])
        idle := fun _ _ => h.clearing hcontrol
        clearing := by simp }

/-- The thread moves on, outside `wait`. -/
theorem move (h : driver.Consistent) (hawake : driver.monitor.waiter = .awake)
    (hthread : driver.thread.joined = false) (thread : Thread α) (hnext : thread.joined = false) :
    Consistent { driver with thread } where
  waiting hwaiter := absurd hawake hwaiter
  live hrunning := ⟨(h.live hrunning).1, hnext⟩
  idle hcontrol hrunning := absurd (h.idle hcontrol hrunning) (by simp [hthread])
  clearing hcontrol := absurd (h.clearing hcontrol) (by simp [hthread])
  heeds := h.heeds

theorem works (h : driver.Consistent) (hnext : Works driver next) : next.Consistent := by
  cases hnext with
  | went hthread =>
      exact h.move (h.awake (by simp [hthread])) (by simp [hthread, Thread.joined]) _ rfl
  | left hthread hrunning =>
      have hawake : driver.monitor.waiter = .awake :=
        h.awake (by rcases hthread with hthread | hthread <;> simp [hthread])
      exact { h with
        waiting := fun hwaiter => absurd hawake hwaiter
        live := fun hstill => absurd (hrunning.symm.trans hstill) (by simp)
        idle := fun _ _ => rfl
        clearing := fun _ => rfl }
  | entered hthread hwaiter =>
      exact h.move hwaiter (by simp [hthread, Thread.joined]) _ rfl
  | refused hthread hwaiter hready =>
      exact { h with
        waiting := fun _ => hthread
        heeds := Monitor.Heeds.refuse fun hqueue => hready (Or.inl hqueue) }
  | slept hthread hwaiter =>
      exact { h with waiting := fun _ => hthread, heeds := h.heeds.sleep hwaiter }
  | asleep => exact h
  | began hthread =>
      exact h.move (h.awake (by simp [hthread])) (by simp [hthread, Thread.joined]) _ rfl
  | @popped _ sample _ hthread hqueue hrunning =>
      have hawake := h.awake (by simp [hthread])
      have hmoved := h.move hawake (by simp [hthread, Thread.joined]) (.publishing sample) rfl
      exact { hmoved with heeds := Monitor.Heeds.of_awake hawake }
  | drained hthread =>
      exact h.move (h.awake (by simp [hthread])) (by simp [hthread, Thread.joined]) _ rfl
  | published hthread =>
      have hmoved := h.move (h.awake (by simp [hthread])) (by simp [hthread, Thread.joined])
        (.draining false) rfl
      exact { hmoved with }
  | outside => exact h

/-- What changes only who is awake. -/
theorem monitor (h : driver.Consistent) {monitor : Monitor (Shared α)}
    (hdata : monitor.data = driver.monitor.data)
    (hheeds : monitor.Heeds fun shared => shared.queue ≠ [])
    (hawake : driver.monitor.waiter = .awake → monitor.waiter = .awake) :
    Consistent { driver with monitor := monitor } where
  waiting hwaiter := h.waiting fun hbefore => hwaiter (hawake hbefore)
  live := by simpa only [hdata] using h.live
  idle := by simpa only [hdata] using h.idle
  clearing := h.clearing
  heeds := hheeds

theorem step (h : driver.Consistent) (label : Label α) : (driver.step label).Consistent := by
  cases label with
  | receive sample => exact h.receive sample
  | notify => exact h.monitor Monitor.data_notify h.heeds.notify Monitor.waiter_notify
  | rouse => exact h.monitor Monitor.data_rouse h.heeds.rouse Monitor.waiter_rouse
  | work => exact h.works (work_works driver)
  | start => exact h.start
  | stop => exact h.stop
  | join => exact h.join
  | clearAllQueues => exact h.clearAllQueues

theorem held_of_joined (h : driver.Consistent) (hjoined : driver.thread.joined = true) :
    driver.held = false := by
  have hawake : driver.monitor.waiter = .awake := h.awake (by
    intro hwaiting
    simp [hwaiting, Thread.joined] at hjoined)
  cases hthread : driver.thread with
  | absent => simp [Driver.held, hawake, hthread]
  | exited => simp [Driver.held, hawake, hthread]
  | _ => simp [hthread, Thread.joined] at hjoined

theorem run (labels : List (Label α)) : (run Driver.step {} labels).Consistent :=
  run_invariant Driver.step Consistent (fun _ label h => h.step label) labels initial

end Consistent

end Driver

/-- While the device callback is past joining the thread, nothing is in flight: what is published
after `stop_imu_thread` has cleared the queue was received after that. -/
theorem published_after_stop (before after : List (Label α))
    (hclearing : (run Driver.step {} before).control = .clearing) :
    let stopped := run Driver.step {} (before ++ [.join])
    let driver := run Driver.step stopped after
    ∃ received published, driver.received = stopped.received ++ received ∧
      driver.published = stopped.published ++ published ∧ published.Sublist received := by
  intro stopped driver
  have hconsistent : (run Driver.step {} before).Consistent := Driver.Consistent.run before
  have hjoined := hconsistent.clearing hclearing
  have hheld := hconsistent.held_of_joined hjoined
  have hstopped : stopped = (run Driver.step {} before).join := run_append _ _ _ _
  simp only [Driver.join, hclearing, hheld, Bool.false_eq_true, if_false] at hstopped
  have hempty : stopped.monitor.data.queue = [] := by
    rw [hstopped]
    rfl
  have hflight : stopped.thread.inFlight = [] := by
    rw [hstopped]
    exact Thread.inFlight_of_joined hjoined
  have hordered := Driver.Ordered.again hempty hflight
  obtain ⟨gone, taken, hreceived, hpublished, horder⟩ := (hordered.run after).order
  exact ⟨_, taken, hreceived, hpublished,
    ((List.sublist_append_left _ _).trans horder).trans (List.sublist_append_left _ _)⟩

theorem published_after_stop_two :
    let before : List (Label Nat) :=
      [.start, .receive 1, .work, .work, .stop, .work, .join]
    let stopped := run Driver.step {} (before ++ [.join])
    let driver := run Driver.step stopped
      [.receive 2, .start, .work, .work, .work, .work, .work]
    ∃ received published, driver.received = stopped.received ++ received ∧
      driver.published = stopped.published ++ published ∧ published.Sublist received :=
  published_after_stop [.start, .receive 1, .work, .work, .stop, .work, .join]
    [.receive 2, .start, .work, .work, .work, .work, .work] (by decide)

/-! ## Whether a stop ends -/

/-- How many steps the thread has left once the flag is cleared. -/
def Thread.rank : Thread α → Nat
  | .absent | .exited => 0
  | .top | .entered => 1
  | .waiting | .draining _ => 2
  | .publishing _ => 3

theorem Thread.rank_le (thread : Thread α) : thread.rank ≤ 3 := by
  cases thread <;> simp [Thread.rank]

theorem Thread.joined_of_rank {thread : Thread α} (hrank : thread.rank = 0) :
    thread.joined = true := by
  cases thread <;> simp [Thread.rank] at hrank ⊢ <;> rfl

/-- A label that brings neither a sample nor a spurious wakeup. -/
def Label.quiet : Label α → Bool
  | .receive _ | .rouse => false
  | _ => true

namespace Driver

/-- Nothing is under way that would wake the thread. -/
def Stuck (driver : Driver α) : Prop :=
  driver.monitor.data.running = false ∧ driver.monitor.waiter ≠ .awake ∧
    driver.monitor.notices = 0

namespace Stuck

variable {driver next : Driver α}

theorem joining (h : driver.Stuck) (hconsistent : driver.Consistent) :
    driver.control = .joining ∧ driver.thread = .waiting := by
  obtain ⟨hrunning, hwaiter, hnotices⟩ := h
  have hthread := hconsistent.waiting hwaiter
  have hjoined : driver.thread.joined ≠ true := by simp [hthread, Thread.joined]
  refine ⟨?_, hthread⟩
  cases hcontrol : driver.control with
  | idle => exact absurd (hconsistent.idle hcontrol hrunning) hjoined
  | joining => rfl
  | clearing => exact absurd (hconsistent.clearing hcontrol) hjoined

theorem works (h : driver.Stuck) (hconsistent : driver.Consistent)
    (hnext : Works driver next) : next.Stuck := by
  obtain ⟨-, hthread⟩ := h.joining hconsistent
  obtain ⟨hrunning, hwaiter, hnotices⟩ := h
  cases hnext with
  | entered _ hawake => exact absurd hawake hwaiter
  | refused _ hawake => exact absurd hawake hwaiter
  | slept => exact ⟨hrunning, by simp [Monitor.sleep], hnotices⟩
  | asleep => exact ⟨hrunning, hwaiter, hnotices⟩
  | _ => simp_all

theorem step (h : driver.Stuck) (hconsistent : driver.Consistent) {label : Label α}
    (hquiet : label.quiet = true) : (driver.step label).Stuck := by
  obtain ⟨hcontrol, hthread⟩ := h.joining hconsistent
  cases label with
  | receive sample => simp [Label.quiet] at hquiet
  | rouse => simp [Label.quiet] at hquiet
  | notify =>
      have hnone : driver.monitor.notify = driver.monitor := by
        rw [Monitor.notify, if_pos h.2.2]
      simpa only [Driver.step, hnone] using h
  | work => exact h.works hconsistent (work_works driver)
  | start => simpa [Driver.step, Driver.start, hcontrol, Control.isIdle] using h
  | stop => simpa [Driver.step, Driver.stop, hcontrol, Control.isIdle] using h
  | join => simpa [Driver.step, Driver.join, hcontrol, hthread, Thread.joined] using h
  | clearAllQueues =>
      simpa [Driver.step, Driver.clearAllQueues, hcontrol, Control.isIdle] using h

theorem run (h : driver.Stuck) (hconsistent : driver.Consistent) {labels : List (Label α)}
    (hquiet : ∀ label ∈ labels, label.quiet = true) :
    (run Driver.step driver labels).thread.joined = false := by
  have hkeeps := run_keeps Driver.step (fun driver => driver.Stuck ∧ driver.Consistent)
    (fun driver label h hquiet => ⟨h.1.step h.2 hquiet, h.2.step label⟩) ⟨h, hconsistent⟩
    (everyStep_of_forall Driver.step hquiet driver)
  have hthread := (hkeeps.1.joining hkeeps.2).2
  simp [hthread, Thread.joined]

end Stuck

/-- The thread is told to leave, and does not sleep. -/
structure Leaving (driver : Driver α) : Prop where
  stopped : driver.monitor.data.running = false
  awake : driver.monitor.waiter = .awake

namespace Leaving

variable {driver next : Driver α}

theorem works (h : driver.Leaving) (hnext : Works driver next) :
    next.Leaving ∧ next.thread.rank ≤ driver.thread.rank - 1 := by
  cases hnext with
  | went hthread hrunning => exact absurd (h.stopped.symm.trans hrunning) (by simp)
  | left => exact ⟨⟨h.stopped, h.awake⟩, Nat.zero_le _⟩
  | entered hthread hwaiter => exact ⟨⟨h.stopped, hwaiter⟩, by simp [hthread, Thread.rank]⟩
  | refused hthread hwaiter hready => exact absurd (Or.inr h.stopped) hready
  | slept hthread hwaiter => exact absurd (h.awake.symm.trans hwaiter) (by simp)
  | asleep hthread hwaiter => exact absurd (h.awake.symm.trans hwaiter) (by simp)
  | began hthread hrunning => exact absurd (h.stopped.symm.trans hrunning) (by simp)
  | popped hthread hqueue hrunning => exact absurd (h.stopped.symm.trans hrunning) (by simp)
  | drained hthread => exact ⟨⟨h.stopped, h.awake⟩, by simp [hthread, Thread.rank]⟩
  | published hthread => exact ⟨⟨h.stopped, h.awake⟩, by simp [hthread, Thread.rank]⟩
  | outside hthread =>
      refine ⟨h, ?_⟩
      rcases hthread with hthread | hthread <;> simp [hthread, Thread.rank]

theorem run {count : Nat} (h : driver.Leaving) (hcount : driver.thread.rank ≤ count) :
    (run Driver.step driver (List.replicate count .work)).thread.joined = true := by
  induction count generalizing driver with
  | zero => exact Thread.joined_of_rank (Nat.le_zero.mp hcount)
  | succ count ih =>
      obtain ⟨hnext, hrank⟩ := h.works (work_works driver)
      exact ih hnext (Nat.le_trans hrank (by omega))

end Leaving

/-- The thread can still leave when it is awake or a notification is on its way. -/
theorem exists_leaving {driver : Driver α} (hconsistent : driver.Consistent)
    (hstopped : driver.monitor.data.running = false)
    (hwakes : driver.monitor.waiter = .awake ∨ 0 < driver.monitor.notices) :
    ∃ labels, (∀ label ∈ labels, label.quiet = true) ∧
      (run Driver.step driver labels).Leaving := by
  cases hwaiter : driver.monitor.waiter with
  | awake => exact ⟨[], by simp, hstopped, hwaiter⟩
  | asleep =>
      have hnotices := Nat.ne_of_gt (hwakes.resolve_left (by simp [hwaiter]))
      refine ⟨[.notify], by simp [Label.quiet], ?_, ?_⟩
      · simpa [Driver.step] using hstopped
      · simp [Driver.step, Monitor.notify, hnotices, hwaiter]
  | refused =>
      have hnotices := Nat.ne_of_gt (hwakes.resolve_left (by simp [hwaiter]))
      have hthread := hconsistent.waiting (by simp [hwaiter])
      have hslept : driver.work = { driver with monitor := driver.monitor.sleep } := by
        simp [Driver.work, hthread, hwaiter]
      refine ⟨[.work, .notify], by simp [Label.quiet], ?_, ?_⟩
      · simpa [Driver.step, hslept, Monitor.sleep] using hstopped
      · simp [Driver.step, hslept, Monitor.notify, Monitor.sleep, hnotices]

/-- The device callback can return from joining the thread without another sample or a spurious
wakeup. -/
def CanEnd (driver : Driver α) : Prop :=
  ∃ later, (∀ label ∈ later, label.quiet = true) ∧
    (run Driver.step driver later).thread.joined = true

theorem canEnd_of_wakes {driver : Driver α} (hconsistent : driver.Consistent)
    (hstopped : driver.monitor.data.running = false)
    (hwakes : driver.monitor.waiter = .awake ∨ 0 < driver.monitor.notices) : driver.CanEnd := by
  obtain ⟨early, hearly, hleaving⟩ := exists_leaving hconsistent hstopped hwakes
  refine ⟨early ++ List.replicate 3 .work, ?_, ?_⟩
  · intro label hlabel
    rcases List.mem_append.mp hlabel with hlabel | hlabel
    · exact hearly label hlabel
    · rw [List.eq_of_mem_replicate hlabel]
      rfl
  · rw [run_append]
    exact hleaving.run (Thread.rank_le _)

end Driver

/-- After the flag is cleared the thread can end, so that `stop_imu_thread` can return, without
another sample or a spurious wakeup exactly when it is awake or a notification is still to come. -/
theorem stop_ends_iff (labels : List (Label α))
    (hstopped : (run Driver.step {} labels).monitor.data.running = false) :
    (run Driver.step {} labels).CanEnd ↔
      (run Driver.step {} labels).monitor.waiter = .awake ∨
        0 < (run Driver.step {} labels).monitor.notices := by
  have hconsistent := Driver.Consistent.run labels
  refine ⟨?_, Driver.canEnd_of_wakes hconsistent hstopped⟩
  rintro ⟨later, hquiet, hjoined⟩
  by_contra hwakes
  obtain ⟨hwaiter, hnotices⟩ := not_or.mp hwakes
  have hstuck : (run Driver.step {} labels).Stuck :=
    ⟨hstopped, hwaiter, Nat.eq_zero_of_not_pos hnotices⟩
  exact absurd (hstuck.run hconsistent hquiet) (by simp [hjoined])

theorem stop_ends_iff_refused :
    (run Driver.step ({} : Driver Nat) [.start, .work, .work, .stop]).CanEnd ↔
      (run Driver.step ({} : Driver Nat) [.start, .work, .work, .stop]).monitor.waiter = .awake ∨
        0 < (run Driver.step ({} : Driver Nat) [.start, .work, .work, .stop]).monitor.notices :=
  stop_ends_iff [.start, .work, .work, .stop] (by decide)

/-- The notification of a stop is lost on a thread that is about to sleep. -/
example :
    let driver := run Driver.step ({} : Driver Nat)
      [.start, .work, .work, .stop, .notify, .work]
    driver.monitor.data.running = false ∧ driver.monitor.waiter = .asleep ∧
      driver.monitor.notices = 0 := by
  decide

/-! ## Stops that are heeded -/

/-- The flag is not cleared while the thread has refused the data and does not sleep yet. -/
def Careful (driver : Driver α) : Label α → Prop
  | .stop => driver.monitor.waiter ≠ .refused
  | _ => True

instance (driver : Driver α) : ∀ label, Decidable (Careful driver label)
  | .stop => inferInstanceAs (Decidable (_ ≠ _))
  | .receive _ | .notify | .rouse | .work | .start | .join | .clearAllQueues => isTrue trivial

namespace Driver

/-- Neither a sample nor a stop is forgotten. -/
structure Attentive (driver : Driver α) : Prop where
  consistent : driver.Consistent
  heeds : driver.monitor.Heeds Shared.Ready

namespace Attentive

variable {driver next : Driver α}

theorem initial : ({} : Driver α).Attentive := ⟨.initial, Monitor.Heeds.of_awake rfl⟩

theorem heeds_works (h : driver.Attentive) (hnext : Works driver next) :
    next.monitor.Heeds Shared.Ready := by
  cases hnext with
  | refused hthread hwaiter hready => exact Monitor.Heeds.refuse hready
  | slept hthread hwaiter => exact h.heeds.sleep hwaiter
  | popped hthread =>
      exact Monitor.Heeds.of_awake (h.consistent.awake (by simp [hthread]))
  | _ => exact h.heeds

theorem heeds_clear (h : driver.Attentive) :
    (driver.monitor.amend Shared.clear).Heeds Shared.Ready :=
  h.heeds.amend_of_imp fun hready => Or.inr (hready.resolve_left (by simp [Shared.clear]))

theorem step (h : driver.Attentive) (label : Label α) (hcareful : Careful driver label) :
    (driver.step label).Attentive := by
  refine ⟨h.consistent.step label, ?_⟩
  cases label with
  | receive sample =>
      simp only [Driver.step, Driver.receive]
      split
      next => exact h.heeds
      next hheld => exact Monitor.Heeds.update _ (Consistent.waiter_ne_refused hheld)
  | notify => exact h.heeds.notify
  | rouse => exact h.heeds.rouse
  | work => exact h.heeds_works (work_works driver)
  | start =>
      simp only [Driver.step, Driver.start]
      split
      next =>
        exact h.heeds.amend_of_imp fun hready =>
          Or.inl (hready.resolve_right (by simp [Shared.setRunning]))
      next => exact h.heeds
  | stop =>
      simp only [Driver.step, Driver.stop]
      split
      next => exact Monitor.Heeds.update _ hcareful
      next => exact h.heeds
  | join =>
      simp only [Driver.step, Driver.join]
      split
      next => exact h.heeds
      next => split <;> exact h.heeds
      next =>
        split
        next => exact h.heeds
        next => exact h.heeds_clear
  | clearAllQueues =>
      simp only [Driver.step, Driver.clearAllQueues]
      split
      next => exact h.heeds_clear
      next => exact h.heeds

end Attentive

end Driver

/-- No stop is lost in a run in which the flag is never cleared between the refusal of the thread
and its sleep: whenever the flag is down, the thread can end. -/
theorem careful_stop_ends {labels : List (Label α)}
    (hcareful : EveryStep Driver.step Careful {} labels)
    (hstopped : (run Driver.step {} labels).monitor.data.running = false) :
    (run Driver.step {} labels).CanEnd := by
  have h : (run Driver.step {} labels).Attentive := run_keeps Driver.step Driver.Attentive
    (fun _ label h hcareful => h.step label hcareful) Driver.Attentive.initial hcareful
  refine Driver.canEnd_of_wakes h.consistent hstopped ?_
  have hready : (run Driver.step {} labels).monitor.data.Ready := Or.inr hstopped
  cases hwaiter : (run Driver.step {} labels).monitor.waiter with
  | awake => exact Or.inl rfl
  | refused => exact absurd hready (h.heeds.refused hwaiter)
  | asleep => exact Or.inr (h.heeds.asleep hwaiter hready)

theorem careful_stop_ends_waiting :
    (run Driver.step ({} : Driver Nat) [.start, .work, .work, .work, .stop]).monitor.waiter =
        .asleep ∧
      (run Driver.step ({} : Driver Nat) [.start, .work, .work, .work, .stop]).CanEnd :=
  ⟨by decide, careful_stop_ends (by decide) (by decide)⟩

end AcflyRos.OdinDriver.ImuQueue

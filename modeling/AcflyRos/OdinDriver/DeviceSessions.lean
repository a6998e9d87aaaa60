import AcflyRos.OdinDriver.DeviceHandles

/-! # Devices that stream

Once the stream of a device has been started, the driver stops it only to end the process. Until
then, while the driver takes a device to be connected, that device streams on the handle in
`odinDevice`, as long as no other device is attached before the first is detached.
-/

namespace AcflyRos.OdinDriver.Device

open AcflyRos.Transition AcflyRos.Typestates AcflyRos.History

namespace Driver

variable {driver next : Driver} {function : Function} {ok : Bool} {handle : Nat}

/-! ## Streams are not stopped -/

theorem Sound.streaming_callback (h : driver.Sound)
    (hstreams : (driver.status handle).phase = .streaming) :
    ((driver.stepCallback ok).status handle).phase = .streaming := by
  obtain ⟨after, heffect, -⟩ := steps_stepCallback ok h.fits
  generalize hcurrent : driver.current = expected at heffect
  generalize driver.stepCallback ok = next at heffect ⊢
  cases heffect with
  | moves hsame =>
      rw [status_of_calls hsame.calls]
      exact hstreams
  | calls _ _ hbroad hquiet hsame =>
      rw [status_of_calls hsame.calls]
      by_cases hdevice : driver.odinDevice = some handle
      · rw [Driver.current, hdevice] at hcurrent
        obtain rfl := Option.some.inj hcurrent
        rw [status_call_of_eq hdevice, after_plain (hquiet hstreams)]
        exact hstreams
      · rw [status_call_of_ne hbroad hdevice]
        exact hstreams
  | @applies _ _ name _ _ _ _ hsame =>
      have hplain : (Function.setCustomParameter name).isPlain = true := rfl
      rw [status_plain hplain hsame.calls rfl]
      exact hstreams
  | logs hsame =>
      rw [status_of_calls hsame.calls]
      exact (congrArg Status.phase (Protocol.state_cons_of_ne rfl (by simp))).trans hstreams
  | creates hsame =>
      have hne : handle ≠ driver.handles := by
        rintro rfl
        rw [h.unmade _ (Nat.le_refl _)] at hstreams
        cases hstreams
      rw [status_of_calls hsame.calls, status_createDevice_of_ne hne]
      exact hstreams
  | drops _ hsame =>
      rw [status_of_calls hsame.calls]
      exact hstreams
  | releases _ hsame =>
      rw [status_of_calls hsame.calls]
      exact hstreams

/-- Before the process is ended, the other threads leave every handle as it is. -/
theorem Meanwhile.status_eq (h : Meanwhile driver next) (hserving : next.IsServing) :
    next.odinDevice = driver.odinDevice ∧ next.deviceConnected = driver.deviceConnected ∧
      next.callback = driver.callback ∧ next.status = driver.status := by
  cases h with
  | rests haside =>
      exact ⟨haside.odinDevice, haside.deviceConnected, haside.callback,
        status_of_calls haside.calls⟩
  | calls hplain _ haside =>
      exact ⟨haside.odinDevice, haside.deviceConnected, haside.callback,
        status_plain hplain haside.calls rfl⟩
  | stops _ hends => exact absurd hserving hends
  | forgets hends => exact absurd hserving hends
  | deinits hends => exact absurd hserving hends

theorem Sound.streaming_act (h : driver.Sound) {label : Label}
    (hserving : (driver.act label).IsServing)
    (hstreams : (driver.status handle).phase = .streaming) :
    ((driver.act label).status handle).phase = .streaming := by
  rcases driver.act_cases label with ⟨device, rfl⟩ | rfl | ⟨ok, rfl⟩ | hmeanwhile
  · have hcalls : (driver.attach device).calls = driver.calls := by
      unfold Driver.attach
      split <;> rfl
    exact (congrArg Status.phase (congrFun (status_of_calls hcalls) handle)).trans hstreams
  · have hcalls : driver.detach.calls = driver.calls := by
      unfold Driver.detach
      split <;> rfl
    exact (congrArg Status.phase (congrFun (status_of_calls hcalls) handle)).trans hstreams
  · exact h.streaming_callback hstreams
  · rw [(hmeanwhile.status_eq hserving).2.2.2]
    exact hstreams

/-- The device streams on the handle, unless a thread has begun to end the process. -/
def StreamsOn (handle : Nat) (driver : Driver) : Prop :=
  driver.IsServing → (driver.status handle).phase = .streaming

theorem StreamsOn.step (htidy : driver.Tidy) (h : StreamsOn handle driver) (label : Label) :
    StreamsOn handle (driver.step label) := by
  intro hserving
  have hdriver := IsServing.of_step hserving
  unfold Driver.step at hserving ⊢
  split at hserving
  next hexited =>
    rw [if_pos hexited]
    exact h hdriver
  next hexited =>
    rw [if_neg hexited]
    exact (htidy hdriver).streaming_act hserving (h hdriver)

end Driver

/-- The driver does not stop a stream before a thread begins to end the process, whatever happens:
also not that of a device that was detached and whose handle was dropped. -/
theorem streaming_stays (cfg : Config) (labels more : List Label) (handle : Nat)
    (hstreams : ((run Driver.step (start cfg) labels).status handle).phase = .streaming)
    (hserving : (run Driver.step (start cfg) (labels ++ more)).IsServing) :
    ((run Driver.step (start cfg) (labels ++ more)).status handle).phase = .streaming := by
  rw [run_append] at hserving ⊢
  exact (run_invariant Driver.step (fun driver => driver.Tidy ∧ Driver.StreamsOn handle driver)
    (fun _ label h => ⟨h.1.step label, h.2.step h.1 label⟩) more
    ⟨Driver.tidy_run cfg labels, fun _ => hstreams⟩).2 hserving

theorem streaming_stays_detached : ((run Driver.step (start {})
    ((.attach {} :: List.replicate 22 (.callback true)) ++
      [.detach, .attach {}, .callback true, .callback true])).status 0).phase = .streaming :=
  streaming_stays {} (.attach {} :: List.replicate 22 (.callback true))
    [.detach, .attach {}, .callback true, .callback true] 0 (by decide) (by decide)

/-! ## Connected devices -/

namespace Driver

variable {driver next : Driver} {ok : Bool}

/-- No device is attached while another one is connected. -/
def Alternates (driver : Driver) : Label → Prop
  | .attach _ => driver.deviceConnected = false
  | _ => True

instance (driver : Driver) (label : Label) : Decidable (driver.Alternates label) := by
  cases label <;> unfold Alternates <;> infer_instance

/-- A connected device streams, and the callback is done with it. -/
structure Connected (driver : Driver) : Prop where
  streams : ∃ handle, driver.odinDevice = some handle ∧
    (driver.status handle).phase = .streaming
  done : driver.callback = .idle ∨ driver.callback = .attaching []

@[simp] theorem deviceConnected_go (driver : Driver) (goal : Next) (rest : List Stage) :
    (driver.go goal rest).deviceConnected = driver.deviceConnected := by
  cases goal <;> rfl

theorem deviceConnected_perform {stage : Stage} (rest : List Stage) (hstage : stage ≠ .connected) :
    (driver.perform ok stage rest).deviceConnected = driver.deviceConnected := by
  cases stage with
  | checkUsb | forgetDevice | createDevice | checkVersion | enableLog | call | exit =>
      exact deviceConnected_go _ _ _
  | checkTimeout => cases ok <;> exact deviceConnected_go _ _ _
  | applyCustomParameters => rfl
  | relocalize retryTime => cases retryTime <;> rfl
  | connected => exact absurd rfl hstage

theorem Sound.connected_callback (h : driver.Sound)
    (hconnected : driver.deviceConnected = true → driver.Connected)
    (hnext : (driver.stepCallback ok).deviceConnected = true) :
    (driver.stepCallback ok).Connected := by
  -- Only the last stage connects a device, and the callback is not at work on a connected one.
  have hdone : driver.deviceConnected = true →
      driver.callback = .idle ∨ driver.callback = .attaching [] := fun heq => (hconnected heq).done
  have hfits := h.fits
  unfold Driver.stepCallback at hnext ⊢
  split at hnext
  next => exact hconnected hnext
  next => exact ⟨(hconnected hnext).streams, Or.inl rfl⟩
  next stage rest hcallback =>
    by_cases hstage : stage = .connected
    · rw [hcallback, hstage] at hfits
      obtain ⟨current, hcurrent, hstreaming, rfl⟩ := hfits
      obtain ⟨handle, hdevice, rfl⟩ := Option.map_eq_some_iff.mp hcurrent
      rw [hstage]
      exact ⟨⟨handle, hdevice, hstreaming⟩, Or.inr rfl⟩
    · rw [deviceConnected_perform rest hstage] at hnext
      rcases hdone hnext with heq | heq <;> cases hcallback.symm.trans heq
  all_goals
    next hcallback => rcases hdone hnext with heq | heq <;> cases hcallback.symm.trans heq

theorem Sound.connected_act (h : driver.Sound)
    (hconnected : driver.deviceConnected = true → driver.Connected) {label : Label}
    (halternates : driver.Alternates label) (hserving : (driver.act label).IsServing)
    (hnext : (driver.act label).deviceConnected = true) : (driver.act label).Connected := by
  rcases driver.act_cases label with ⟨device, rfl⟩ | rfl | ⟨ok, rfl⟩ | hmeanwhile
  · have hsame : (driver.attach device).deviceConnected = driver.deviceConnected := by
      unfold Driver.attach
      split <;> rfl
    exact absurd (halternates.symm.trans (hsame.symm.trans hnext)) (by simp)
  · change driver.detach.deviceConnected = true at hnext
    show driver.detach.Connected
    unfold Driver.detach at hnext ⊢
    split at hnext
    next => cases hnext
    next hbusy =>
      rw [if_neg hbusy]
      exact hconnected hnext
  · exact h.connected_callback hconnected hnext
  · obtain ⟨hdevice, hsame, hcallback, hstatus⟩ := hmeanwhile.status_eq hserving
    obtain ⟨hstreams, hdone⟩ := hconnected (hsame.symm.trans hnext)
    constructor
    · rw [hdevice, hstatus]
      exact hstreams
    · rw [hcallback]
      exact hdone

/-- Unless a thread has begun to end the process. -/
def KeepsConnected (driver : Driver) : Prop :=
  driver.IsServing → driver.deviceConnected = true → driver.Connected

theorem KeepsConnected.step (htidy : driver.Tidy) (h : driver.KeepsConnected) {label : Label}
    (halternates : driver.Alternates label) : (driver.step label).KeepsConnected := by
  intro hserving hnext
  have hdriver := IsServing.of_step hserving
  unfold Driver.step at hserving hnext ⊢
  split at hserving
  next hexited =>
    rw [if_pos hexited] at hnext ⊢
    exact h hdriver hnext
  next hexited =>
    rw [if_neg hexited] at hnext ⊢
    exact (htidy hdriver).connected_act (h hdriver) halternates hserving hnext

end Driver

/-- Until a thread begins to end the process, while the driver takes a device to be connected,
`odinDevice` holds a handle whose stream is started, and the callback is not at work on it, if no
device is attached while one is connected. -/
theorem connected_streams (cfg : Config) (labels : List Label)
    (halternates : EveryStep Driver.step Driver.Alternates (start cfg) labels)
    (hserving : (run Driver.step (start cfg) labels).IsServing)
    (hconnected : (run Driver.step (start cfg) labels).deviceConnected = true) :
    (∃ handle, (run Driver.step (start cfg) labels).odinDevice = some handle ∧
      ((run Driver.step (start cfg) labels).status handle).phase = .streaming) ∧
      ((run Driver.step (start cfg) labels).callback = .idle ∨
        (run Driver.step (start cfg) labels).callback = .attaching []) := by
  have h := run_keeps Driver.step (fun driver => driver.Tidy ∧ driver.KeepsConnected)
    (fun _ label h halternates => ⟨h.1.step label, h.2.step h.1 halternates⟩)
    ⟨Driver.tidy_start cfg, fun _ hfalse => by cases hfalse⟩ halternates
  exact ⟨(h.2 hserving hconnected).streams, (h.2 hserving hconnected).done⟩

theorem connected_streams_once : (∃ handle, (run Driver.step (start {})
    (.attach {} :: List.replicate 22 (.callback true))).odinDevice = some handle ∧
      ((run Driver.step (start {}) (.attach {} :: List.replicate 22 (.callback true))).status
        handle).phase = .streaming) :=
  (connected_streams {} (.attach {} :: List.replicate 22 (.callback true)) (by decide) (by decide)
    (by decide)).1

end AcflyRos.OdinDriver.Device

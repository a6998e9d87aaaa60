import AcflyRos.OdinDriver.DeviceCallback

/-! # How the driver keeps its handles

As long as no thread has begun to end the process, the other threads leave the handle in
`odinDevice` as it is, so that it is in the state in which the callback takes it to be. Handles are
then lost only where the callback drops one.
-/

namespace AcflyRos.OdinDriver.Device

open AcflyRos.Transition AcflyRos.Typestates

namespace Driver

variable (driver : Driver)

/-- What the library knows of a handle. -/
def status (handle : Nat) : Status := sdk.state driver.calls handle

/-- The state of the handle in `odinDevice`. -/
def current : Option Status := driver.odinDevice.map driver.status

structure Made : Prop where
  unmade : ∀ handle, driver.handles ≤ handle → (driver.status handle).phase = .absent
  held : ∀ handle, driver.odinDevice = some handle → handle < driver.handles

/-- What is known of all handles. -/
structure Kept : Prop extends Made driver where
  dropped : ∀ handle ∈ driver.dropped, handle < driver.handles ∧
    driver.odinDevice ≠ some handle ∧ (driver.status handle).phase.IsLive
  others : ∀ handle < driver.handles, handle ∉ driver.dropped →
    driver.odinDevice ≠ some handle → (driver.status handle).phase = .destroyed

structure Sound : Prop extends Kept driver where
  fits : Fits driver.current driver.callback

variable {driver} {next : Driver} {function : Function} {ok : Bool}

/-! ## The state of a handle -/

theorem status_of_calls (hcalls : next.calls = driver.calls) : next.status = driver.status :=
  funext fun handle => by rw [status, hcalls, status]

theorem current_of_same (hsame : SameBooks driver next) : next.current = driver.current := by
  rw [current, hsame.odinDevice, status_of_calls hsame.calls, current]

theorem status_call_of_eq {handle : Nat} (hdevice : driver.odinDevice = some handle) :
    (driver.call function ok).status handle = sdk.after (function, ok) (driver.status handle) :=
  Protocol.state_cons_of_eq hdevice

theorem status_call_of_ne {handle : Nat} (hbroad : function.isBroad = false)
    (hdevice : driver.odinDevice ≠ some handle) :
    (driver.call function ok).status handle = driver.status handle :=
  Protocol.state_cons_of_ne hbroad hdevice

theorem current_call :
    (driver.call function ok).current = driver.current.map (sdk.after (function, ok)) := by
  unfold current
  rw [Option.map_map]
  exact Option.map_congr fun handle hhandle => status_call_of_eq (Option.mem_def.mp hhandle)

/-- A call that leaves every handle as it is. -/
theorem status_plain {calls : List (Call Nat Answered)} {target : Option Nat}
    (hplain : function.isPlain = true) (hcalls : next.calls = ⟨target, (function, ok)⟩ :: calls)
    (hdriver : driver.calls = calls) : next.status = driver.status := by
  funext handle
  rw [status, hcalls, status, hdriver]
  exact Protocol.state_cons_of_same (after_plain hplain ok _)

/-! ## Steps that keep the handles -/

/-- A step that changes at most the state of the handle in `odinDevice`. -/
theorem Made.update (h : driver.Made) (hdevice : next.odinDevice = driver.odinDevice)
    (hhandles : next.handles = driver.handles)
    (hstatus : ∀ handle, driver.odinDevice ≠ some handle →
      next.status handle = driver.status handle) : next.Made where
  unmade handle hle := by
    rw [hhandles] at hle
    rw [hstatus handle fun heq => absurd (h.held handle heq) (Nat.not_lt.mpr hle)]
    exact h.unmade handle hle
  held := by
    rw [hdevice, hhandles]
    exact h.held

theorem Made.of_same (h : driver.Made) (hsame : SameBooks driver next) : next.Made :=
  h.update hsame.odinDevice hsame.handles fun _ _ => by rw [status_of_calls hsame.calls]

theorem Made.call (h : driver.Made) (hbroad : function.isBroad = false) (ok : Bool) :
    (driver.call function ok).Made :=
  h.update rfl rfl fun _ hne => status_call_of_ne hbroad hne

/-- `odinDevice` is set to null. -/
theorem Made.forget (h : driver.Made) (hnone : next.odinDevice = none)
    (hhandles : next.handles = driver.handles) (hcalls : next.calls = driver.calls) :
    next.Made where
  unmade := by
    rw [hhandles, status_of_calls hcalls]
    exact h.unmade
  held handle hsome := by
    rw [hnone] at hsome
    cases hsome

theorem status_createDevice_of_ne {isOpen : Bool} {handle : Nat} (hne : handle ≠ driver.handles) :
    (driver.createDevice isOpen ok).status handle = driver.status handle :=
  Protocol.state_cons_of_ne rfl fun heq => hne (Option.some.inj heq).symm

/-- A handle that could not be made is still to be made. -/
theorem status_createDevice_failed {isOpen : Bool} :
    (driver.createDevice isOpen false).status = driver.status :=
  funext fun _ => Protocol.state_cons_of_same (after_failed rfl)

theorem Made.createDevice (h : driver.Made) (isOpen ok : Bool) :
    (driver.createDevice isOpen ok).Made := by
  cases ok with
  | false => exact h.update rfl rfl fun _ _ => by rw [status_createDevice_failed]
  | true =>
      constructor
      · intro handle hle
        have hle' : driver.handles + 1 ≤ handle := hle
        rw [status_createDevice_of_ne (by omega)]
        exact h.unmade handle (Nat.le_of_succ_le hle')
      · intro handle hsome
        obtain rfl := Option.some.inj hsome
        exact Nat.lt_succ_self _

/-- The calls that concern no handle leave every handle as it is. -/
theorem status_logs
    (hcalls : next.calls = ⟨none, (.enableEncryptedDeviceLog, ok)⟩ :: driver.calls) :
    next.status = driver.status := by
  funext handle
  rw [status, hcalls]
  exact Protocol.state_cons_of_ne rfl (by simp)

theorem Made.effect {expected after : Option Status} (h : driver.Made)
    (heffect : Effect driver ok expected next after) : next.Made := by
  cases heffect with
  | moves hsame => exact h.of_same hsame
  | calls _ _ hbroad _ hsame => exact (h.call hbroad ok).of_same hsame
  | @applies _ _ name _ _ _ _ hsame =>
      have hplain : (Function.setCustomParameter name).isPlain = true := rfl
      exact h.update hsame.odinDevice hsame.handles fun _ _ => by
        rw [status_plain hplain hsame.calls rfl]
  | logs hsame =>
      exact h.update hsame.odinDevice hsame.handles fun _ _ => by rw [status_logs hsame.calls]
  | creates hsame => exact (h.createDevice _ ok).of_same hsame
  | drops _ hsame => exact h.forget hsame.odinDevice hsame.handles hsame.calls
  | releases _ hsame => exact h.forget hsame.odinDevice hsame.handles hsame.calls

theorem Kept.update (h : driver.Kept) (hmade : next.Made)
    (hdevice : next.odinDevice = driver.odinDevice) (hhandles : next.handles = driver.handles)
    (hdropped : next.dropped = driver.dropped)
    (hstatus : ∀ handle, driver.odinDevice ≠ some handle →
      next.status handle = driver.status handle) : next.Kept where
  toMade := hmade
  dropped handle hmem := by
    rw [hdropped] at hmem
    obtain ⟨hlt, hne, hlive⟩ := h.dropped handle hmem
    rw [hhandles, hdevice, hstatus handle hne]
    exact ⟨hlt, hne, hlive⟩
  others handle hlt hmem hne := by
    rw [hhandles] at hlt
    rw [hdropped] at hmem
    rw [hdevice] at hne
    rw [hstatus handle hne]
    exact h.others handle hlt hmem hne

theorem Kept.of_same (h : driver.Kept) (hsame : SameBooks driver next) : next.Kept :=
  h.update (h.toMade.of_same hsame) hsame.odinDevice hsame.handles hsame.dropped fun _ _ => by
    rw [status_of_calls hsame.calls]

theorem Kept.forget (h : driver.Kept) (husable : Usable driver.current) : Kept { driver with
    odinDevice := none, dropped := driver.odinDevice.toList ++ driver.dropped } where
  toMade := h.toMade.forget rfl rfl rfl
  dropped handle hmem := by
    rcases List.mem_append.mp hmem with hcurrent | hearlier
    · have hdevice := Option.mem_toList.mp hcurrent
      refine ⟨h.held handle hdevice, by simp, husable _ ?_⟩
      exact Option.mem_map_of_mem driver.status hdevice
    · obtain ⟨hlt, -, hlive⟩ := h.dropped handle hearlier
      exact ⟨hlt, by simp, hlive⟩
  others handle hlt hmem _ := by
    obtain ⟨hcurrent, hearlier⟩ := not_or.mp (List.mem_append.not.mp hmem)
    exact h.others handle hlt hearlier fun heq => hcurrent (Option.mem_toList.mpr heq)

theorem Kept.release (h : driver.Kept) {status : Status} (hcurrent : driver.current = some status)
    (hdestroyed : status.phase = .destroyed) : Kept { driver with odinDevice := none } where
  toMade := h.toMade.forget rfl rfl rfl
  dropped handle hmem := by
    obtain ⟨hlt, -, hlive⟩ := h.dropped handle hmem
    exact ⟨hlt, by simp, hlive⟩
  others handle hlt hmem _ := by
    by_cases hdevice : driver.odinDevice = some handle
    · rw [current, hdevice] at hcurrent
      exact Option.some.inj hcurrent ▸ hdestroyed
    · exact h.others handle hlt hmem hdevice

theorem Kept.createDevice (h : driver.Kept) (hnone : driver.odinDevice = none) (isOpen : Bool) :
    (driver.createDevice isOpen true).Kept where
  toMade := h.toMade.createDevice isOpen true
  dropped handle hmem := by
    obtain ⟨hlt, -, hlive⟩ := h.dropped handle hmem
    rw [status_createDevice_of_ne (Nat.ne_of_lt hlt)]
    refine ⟨Nat.lt_succ_of_lt hlt, fun heq => ?_, hlive⟩
    exact Nat.ne_of_gt hlt (Option.some.inj heq)
  others handle hlt hmem hne := by
    have hother : handle ≠ driver.handles := fun heq => hne (by rw [heq]; rfl)
    have hlt' : handle < driver.handles + 1 := hlt
    rw [status_createDevice_of_ne hother]
    refine h.others handle (by omega) hmem ?_
    rw [hnone]
    simp

/-- A handle that has not been made is fresh to the one who makes it. -/
theorem Made.current_createDevice (h : driver.Made) {isOpen : Bool} :
    (driver.createDevice isOpen true).current =
      some ⟨if isOpen then .opened else .created, false, false⟩ := by
  have hphase : (driver.status driver.handles).phase ≠ .released := by
    rw [h.unmade _ (Nat.le_refl _)]
    simp
  exact congrArg some ((Protocol.state_cons_of_eq rfl).trans (after_ok hphase))

theorem current_createDevice_failed {isOpen : Bool} :
    (driver.createDevice isOpen false).current = driver.current := by
  rw [current, status_createDevice_failed]
  rfl

theorem Kept.effect {expected after : Option Status} (h : driver.Kept)
    (hexpected : driver.current = expected) (heffect : Effect driver ok expected next after) :
    next.Kept ∧ next.current = after := by
  have hmade := h.toMade.effect heffect
  cases heffect with
  | moves hsame => exact ⟨h.of_same hsame, (current_of_same hsame).trans hexpected⟩
  | calls _ _ hbroad _ hsame =>
      refine ⟨h.update hmade hsame.odinDevice hsame.handles hsame.dropped fun handle hne => ?_, ?_⟩
      · rw [status_of_calls hsame.calls]
        exact status_call_of_ne hbroad hne
      · rw [current_of_same hsame, current_call, hexpected]
        rfl
  | @applies _ _ name _ _ _ _ hsame =>
      have hplain : (Function.setCustomParameter name).isPlain = true := rfl
      have hstatus : next.status = driver.status := status_plain hplain hsame.calls rfl
      refine ⟨h.update hmade hsame.odinDevice hsame.handles hsame.dropped fun _ _ => by
        rw [hstatus], ?_⟩
      rw [current, hsame.odinDevice, hstatus]
      exact hexpected
  | logs hsame =>
      have hstatus : next.status = driver.status := status_logs hsame.calls
      refine ⟨h.update hmade hsame.odinDevice hsame.handles hsame.dropped fun _ _ => by
        rw [hstatus], ?_⟩
      rw [current, hsame.odinDevice, hstatus]
      exact hexpected
  | creates hsame =>
      have hnone : driver.odinDevice = none := Option.map_eq_none_iff.mp hexpected
      rw [current_of_same hsame]
      cases ok with
      | true => exact ⟨(h.createDevice hnone _).of_same hsame, h.toMade.current_createDevice⟩
      | false =>
          refine ⟨h.update hmade hsame.odinDevice hsame.handles hsame.dropped fun _ _ => ?_,
            current_createDevice_failed.trans hexpected⟩
          rw [status_of_calls hsame.calls, status_createDevice_failed]
  | drops husable hsame =>
      exact ⟨(h.forget (hexpected ▸ husable)).of_same hsame, current_of_same hsame⟩
  | releases hdestroyed hsame =>
      exact ⟨(h.release hexpected hdestroyed).of_same hsame, current_of_same hsame⟩

theorem Sound.stepCallback (h : driver.Sound)
    (hruns : (driver.stepCallback ok).exited = false) : (driver.stepCallback ok).Sound := by
  obtain ⟨after, heffect, hfits⟩ := steps_stepCallback ok h.fits
  obtain ⟨hkept, hcurrent⟩ := h.toKept.effect rfl heffect
  exact ⟨hkept, hcurrent ▸ hfits hruns⟩

/-! ## Steps of the other threads -/

/-- A step of another thread. -/
structure Aside (driver next : Driver) : Prop extends SameBooks driver next where
  callback : next.callback = driver.callback
  deviceConnected : next.deviceConnected = driver.deviceConnected

theorem Aside.refl (driver : Driver) : Aside driver driver := ⟨SameBooks.refl driver, rfl, rfl⟩

/-- What the other threads do in a step. Only those that end the process change the handle. -/
inductive Meanwhile (driver next : Driver) : Prop
  | rests (haside : Aside driver next)
  | calls {function : Function} {ok : Bool} (hplain : function.isPlain = true)
      (hlate : function.isLate = false) (haside : Aside (driver.call function ok) next)
  | stops {function : Function} {ok : Bool}
      (hstops : function = .stopStream ∨ function = .unregisterStreamCallback)
      (hends : ¬ next.IsServing) (haside : Aside (driver.call function ok) next)
  | forgets (hends : ¬ next.IsServing) (haside : Aside { driver with odinDevice := none } next)
  | deinits {ok : Bool} (hends : ¬ next.IsServing) (haside : Aside { driver with
      systemUp := false, calls := ⟨none, (.systemDeinit, ok)⟩ :: driver.calls } next)

theorem meanwhile_finish (ending : Ending) (ok : Bool) (hends : ¬ next.IsServing)
    (haside : Aside (driver.finish ok ending) next) : Meanwhile driver next := by
  cases ending with
  | ifDevice => exact .rests haside
  | exit => exact .rests ⟨⟨haside.odinDevice, haside.handles, haside.dropped, haside.calls,
      haside.systemUp⟩, haside.callback, haside.deviceConnected⟩
  | stopStream => exact .stops (Or.inl rfl) hends haside
  | unregisterCallback => exact .stops (Or.inr rfl) hends haside
  | forgetDevice => exact .forgets hends haside
  | deinit => exact .deinits hends haside

theorem plain_of_request (request : Request) :
    request.function.isPlain = true ∧ request.function.isLate = false := by
  cases request <;> exact ⟨rfl, rfl⟩

/-- A step is one of the thread of the callback or one of the others. -/
theorem act_cases (driver : Driver) (label : Label) :
    (∃ device, label = .attach device) ∨ label = .detach ∨ (∃ ok, label = .callback ok) ∨
      Meanwhile driver (driver.act label) := by
  cases label with
  | attach device => exact Or.inl ⟨device, rfl⟩
  | detach => exact Or.inr (Or.inl rfl)
  | callback ok => exact Or.inr (Or.inr (Or.inl ⟨ok, rfl⟩))
  | loop =>
      refine Or.inr (Or.inr (Or.inr (.rests ?_)))
      show Aside driver driver.loop
      unfold Driver.loop
      split <;> exact ⟨⟨rfl, rfl, rfl, rfl, rfl⟩, rfl, rfl⟩
  | check request =>
      refine Or.inr (Or.inr (Or.inr (.rests ?_)))
      show Aside driver (driver.check request)
      unfold Driver.check
      split <;> exact ⟨⟨rfl, rfl, rfl, rfl, rfl⟩, rfl, rfl⟩
  | call ok =>
      refine Or.inr (Or.inr (Or.inr ?_))
      show Meanwhile driver (driver.callRequest ok)
      unfold Driver.callRequest
      split
      next request _ =>
        obtain ⟨hplain, hlate⟩ := plain_of_request request
        exact .calls hplain hlate ⟨⟨rfl, rfl, rfl, rfl, rfl⟩, rfl, rfl⟩
      next => exact .rests (Aside.refl driver)
  | saveMap =>
      refine Or.inr (Or.inr (Or.inr (.rests ?_)))
      show Aside driver driver.saveMap
      unfold Driver.saveMap
      split <;> exact ⟨⟨rfl, rfl, rfl, rfl, rfl⟩, rfl, rfl⟩
  | transfer ok =>
      refine Or.inr (Or.inr (Or.inr ?_))
      show Meanwhile driver (driver.transfer ok)
      unfold Driver.transfer
      split
      next =>
        have hplain : Function.saveMap.isPlain = true := rfl
        exact .calls hplain rfl ⟨⟨rfl, rfl, rfl, rfl, rfl⟩, rfl, rfl⟩
      next => exact .rests (Aside.refl driver)
  | transferred =>
      refine Or.inr (Or.inr (Or.inr (.rests ?_)))
      show Aside driver driver.transferred
      unfold Driver.transferred
      split <;> exact ⟨⟨rfl, rfl, rfl, rfl, rfl⟩, rfl, rfl⟩
  | signal =>
      exact Or.inr (Or.inr (Or.inr (.rests ⟨⟨rfl, rfl, rfl, rfl, rfl⟩, rfl, rfl⟩)))
  | handle index ok =>
      refine Or.inr (Or.inr (Or.inr ?_))
      show Meanwhile driver (driver.handle index ok)
      unfold Driver.handle
      split
      next ending rest hhandler =>
        refine meanwhile_finish ending ok (fun hserving => ?_)
          ⟨⟨rfl, rfl, rfl, rfl, rfl⟩, rfl, rfl⟩
        have hnone := (List.set_eq_nil_iff _ _).mp hserving.2.1
        rw [hnone] at hhandler
        cases hhandler
      next => exact .rests (Aside.refl driver)
  | giveUp deinits =>
      refine Or.inr (Or.inr (Or.inr (.rests ?_)))
      show Aside driver (driver.giveUp deinits)
      unfold Driver.giveUp
      split <;> exact ⟨⟨rfl, rfl, rfl, rfl, rfl⟩, rfl, rfl⟩
  | leave =>
      refine Or.inr (Or.inr (Or.inr (.rests ?_)))
      show Aside driver driver.leave
      unfold Driver.leave
      split <;> exact ⟨⟨rfl, rfl, rfl, rfl, rfl⟩, rfl, rfl⟩
  | finish ok =>
      refine Or.inr (Or.inr (Or.inr ?_))
      show Meanwhile driver (driver.finishMain ok)
      unfold Driver.finishMain
      split
      next ending rest hmain =>
        exact meanwhile_finish ending ok (fun hserving => by cases hserving.2.2)
          ⟨⟨rfl, rfl, rfl, rfl, rfl⟩, rfl, rfl⟩
      next => exact .rests (Aside.refl driver)

theorem Sound.meanwhile (h : driver.Sound) (hmeanwhile : Meanwhile driver next)
    (hserving : next.IsServing) : next.Sound := by
  cases hmeanwhile with
  | rests haside =>
      refine ⟨h.toKept.of_same haside.toSameBooks, ?_⟩
      rw [current_of_same haside.toSameBooks, haside.callback]
      exact h.fits
  | @calls function ok hplain _ haside =>
      have hstatus : next.status = driver.status := status_plain hplain haside.calls rfl
      have hdevice : next.odinDevice = driver.odinDevice := haside.odinDevice
      have hmade := h.toMade.update hdevice haside.handles fun _ _ => by rw [hstatus]
      refine ⟨h.toKept.update hmade hdevice haside.handles haside.dropped fun _ _ => by
        rw [hstatus], ?_⟩
      rw [current, hdevice, hstatus, haside.callback]
      exact h.fits
  | stops _ hends => exact absurd hserving hends
  | forgets hends => exact absurd hserving hends
  | deinits hends => exact absurd hserving hends

/-! ## Until a thread ends the process -/

@[simp] theorem handlers_go (driver : Driver) (goal : Next) (rest : List Stage) :
    (driver.go goal rest).handlers = driver.handlers := by
  cases goal <;> rfl

@[simp] theorem main_go (driver : Driver) (goal : Next) (rest : List Stage) :
    (driver.go goal rest).main = driver.main := by
  cases goal <;> rfl

@[simp] theorem systemUp_go (driver : Driver) (goal : Next) (rest : List Stage) :
    (driver.go goal rest).systemUp = driver.systemUp := by
  cases goal <;> rfl

/-- The callback does not touch what the other threads are at. -/
theorem threads_stepCallback (driver : Driver) (ok : Bool) :
    (driver.stepCallback ok).handlers = driver.handlers ∧
      (driver.stepCallback ok).main = driver.main ∧
      (driver.stepCallback ok).systemUp = driver.systemUp := by
  unfold Driver.stepCallback
  split
  case h_3 stage rest _ =>
    cases stage with
    | checkTimeout => cases ok <;> exact ⟨handlers_go _ _ _, main_go _ _ _, systemUp_go _ _ _⟩
    | relocalize retryTime =>
        cases retryTime <;> exact ⟨handlers_go _ _ _, main_go _ _ _, systemUp_go _ _ _⟩
    | applyCustomParameters => exact ⟨rfl, rfl, rfl⟩
    | _ => exact ⟨handlers_go _ _ _, main_go _ _ _, systemUp_go _ _ _⟩
  all_goals exact ⟨rfl, rfl, rfl⟩

theorem handlers_act {label : Label} (hnone : (driver.act label).handlers = []) :
    driver.handlers = [] := by
  cases label with
  | callback ok => exact (driver.threads_stepCallback ok).1.symm.trans hnone
  | signal => exact absurd hnone (List.append_ne_nil_of_right_ne_nil _ (by simp))
  | handle index ok =>
      change (driver.handle index ok).handlers = [] at hnone
      unfold Driver.handle at hnone
      split at hnone
      next => exact (List.set_eq_nil_iff _ _).mp hnone
      next => exact hnone
  | call ok =>
      change (driver.callRequest ok).handlers = [] at hnone
      unfold Driver.callRequest at hnone
      split at hnone <;> exact hnone
  | finish ok =>
      change (driver.finishMain ok).handlers = [] at hnone
      unfold Driver.finishMain at hnone
      split at hnone
      next ending rest _ => cases ending <;> exact hnone
      next => exact hnone
  | _ =>
      simpa [Driver.act, Driver.attach, Driver.detach, Driver.loop, Driver.check, Driver.saveMap,
        Driver.transfer, Driver.transferred, Driver.giveUp, Driver.leave, Driver.call,
        apply_ite Driver.handlers] using hnone

/-- The main thread that ends the process goes on with it. -/
theorem isEnding_act (label : Label) (hmain : driver.main.isEnding = true) :
    (driver.act label).main.isEnding = true := by
  obtain ⟨todo, hmain⟩ : ∃ todo, driver.main = .ending todo := by
    unfold MainThread.isEnding at hmain
    split at hmain
    next todo heq => exact ⟨todo, heq⟩
    next => cases hmain
  cases label with
  | callback ok =>
      simp [Driver.act, (driver.threads_stepCallback ok).2.1, hmain, MainThread.isEnding]
  | handle index ok =>
      show (driver.handle index ok).main.isEnding = true
      unfold Driver.handle
      split
      next ending rest _ =>
        cases ending <;> simp [Driver.finish, Driver.call, hmain, MainThread.isEnding]
      next => simp [hmain, MainThread.isEnding]
  | finish ok =>
      show (driver.finishMain ok).main.isEnding = true
      unfold Driver.finishMain
      split
      next => rfl
      next => simp [hmain, MainThread.isEnding]
  | _ =>
      simp [Driver.act, Driver.attach, Driver.detach, Driver.loop, Driver.check, Driver.callRequest,
        Driver.saveMap, Driver.transfer, Driver.transferred, Driver.signal, Driver.giveUp,
        Driver.leave, Driver.call, Driver.Commands, apply_ite Driver.main, hmain,
        MainThread.isEnding]

theorem IsServing.of_step {label : Label} (h : (driver.step label).IsServing) :
    driver.IsServing := by
  unfold Driver.step at h
  split at h
  next => exact h
  next hexited =>
    refine ⟨by simpa using hexited, handlers_act h.2.1, ?_⟩
    by_contra hmain
    have hends := isEnding_act label (by simpa using hmain)
    exact absurd (hends.symm.trans h.2.2) (by simp)

/-- Unless a thread has begun to end the process. -/
def Tidy (driver : Driver) : Prop := driver.IsServing → driver.Sound

theorem Sound.act (h : driver.Sound) {label : Label} (hserving : (driver.act label).IsServing) :
    (driver.act label).Sound := by
  rcases driver.act_cases label with ⟨device, rfl⟩ | rfl | ⟨ok, rfl⟩ | hmeanwhile
  · show (driver.attach device).Sound
    unfold Driver.attach
    split
    next hidle =>
      have hfits := h.fits
      rw [hidle] at hfits
      exact ⟨h.toKept.of_same ⟨rfl, rfl, rfl, rfl, rfl⟩, ready_attachStages driver.cfg device hfits⟩
    next => exact h
  · show driver.detach.Sound
    unfold Driver.detach
    split
    next => exact ⟨h.toKept.of_same ⟨rfl, rfl, rfl, rfl, rfl⟩, h.fits⟩
    next => exact h
  · exact h.stepCallback hserving.1
  · exact h.meanwhile hmeanwhile hserving

theorem Tidy.step (h : driver.Tidy) (label : Label) : (driver.step label).Tidy := by
  intro hserving
  have hsound := h (IsServing.of_step hserving)
  unfold Driver.step at hserving ⊢
  split at hserving
  next hexited => rwa [if_pos hexited]
  next hexited =>
    rw [if_neg hexited]
    exact hsound.act hserving

theorem tidy_start (cfg : Config) : (start cfg).Tidy := fun _ =>
  { unmade := fun _ _ => rfl
    held := fun _ hsome => by cases hsome
    dropped := fun _ hmem => by cases hmem
    others := fun _ hlt => absurd hlt (Nat.not_lt_zero _)
    fits := fun _ hmem => by cases hmem }

theorem tidy_run (cfg : Config) (labels : List Label) : (run step (start cfg) labels).Tidy :=
  run_invariant step Tidy (fun _ label h => h.step label) labels (tidy_start cfg)

end Driver

/-! ## Lost handles -/

theorem Fits.destroyed_iff {status : Status} {callback : Callback}
    (h : Fits (some status) callback) : status.phase = .destroyed ↔ callback = .forgetting := by
  have hlive : Usable (some status) → status.phase ≠ .destroyed := fun husable =>
    (husable status rfl).2.2.1
  cases callback with
  | idle => exact iff_of_false (hlive h) (by simp)
  | attaching todo => exact iff_of_false (hlive (Ready.usable h)) (by simp)
  | applying handle names todo => exact iff_of_false (hlive h.1.usable) (by simp)
  | closing => exact iff_of_false (hlive (Quiet.usable h)) (by simp)
  | destroying isClosed =>
      obtain ⟨_, hsome, hphase⟩ := h
      obtain rfl := Option.some.inj hsome
      refine iff_of_false ?_ (by simp)
      rw [hphase]
      split <;> simp
  | forgetting =>
      obtain ⟨_, hsome, hphase⟩ := h
      obtain rfl := Option.some.inj hsome
      exact iff_of_true hphase rfl

/-- Handles are lost only at an attachment: whatever fails and in whatever order the threads run, as
long as none has begun to end the process, a handle that was made and not destroyed is the one in
`odinDevice`, or one that the callback found there when another device was attached and dropped. -/
theorem handles_accounted (cfg : Config) (labels : List Label) (handle : Nat)
    (hserving : (run Driver.step (start cfg) labels).IsServing)
    (hmade : handle < (run Driver.step (start cfg) labels).handles) :
    ((run Driver.step (start cfg) labels).status handle).phase ≠ .destroyed ↔
      handle ∈ (run Driver.step (start cfg) labels).dropped ∨
        ((run Driver.step (start cfg) labels).odinDevice = some handle ∧
          (run Driver.step (start cfg) labels).callback ≠ .forgetting) := by
  have h := Driver.tidy_run cfg labels hserving
  generalize run Driver.step (start cfg) labels = driver at *
  by_cases hdropped : handle ∈ driver.dropped
  · exact iff_of_true (h.dropped handle hdropped).2.2.2.2.1 (Or.inl hdropped)
  · by_cases hdevice : driver.odinDevice = some handle
    · have hfits := h.fits
      rw [Driver.current, hdevice] at hfits
      simp only [hdropped, hdevice, false_or, true_and, ne_eq, not_iff_not]
      exact hfits.destroyed_iff
    · simp [hdropped, hdevice, h.others handle hmade hdropped hdevice]

theorem handles_accounted_twice : (0 : Nat) ∈ (run Driver.step (start {})
    (.attach {} :: List.replicate 22 (.callback true) ++
      [.detach, .attach {}] ++ List.replicate 22 (.callback true))).dropped := by
  have h := (handles_accounted {} (.attach {} :: List.replicate 22 (.callback true) ++
    [.detach, .attach {}] ++ List.replicate 22 (.callback true)) 0 (by decide) (by decide)).mp
      (by decide)
  exact h.resolve_right (by decide)

end AcflyRos.OdinDriver.Device

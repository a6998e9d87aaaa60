import AcflyRos.Foundation.Polling
import AcflyRos.Daemon.StopTimes

/-! # The wait of a restart request

A restart request for one process polls until its entry has left STOPPING. The loop ends because
the child is reaped or its stop request times out, and the time-out is measured on the node
clock, which the system clock moves. It therefore takes longer than `shutdown_timeout_sec` for a
request that was made before the clock was set back.
-/

namespace AcflyRos.Daemon

open AcflyRos.Transition AcflyRos.Table AcflyRos.Polling

/-! ## One iteration -/

namespace World

/-- One iteration of the wait of `handle_restart`. -/
def poll (world : World) : World := (reapChildren world.interact).andThen checkStopTimeouts

/-- No stop request has timed out. -/
def Punctual (world : World) : Prop :=
  ∀ mp ∈ world.processes, mp.stopping = true → 0 < mp.pid →
    world.ros - mp.stopRequestTime.nanoseconds ≤ mp.shutdownTimeoutSec

/-- The stop request of that entry has not timed out at that time. -/
def OnTime (time : Int) (i : Nat) (world : World) : Prop :=
  ∀ mp, world.processes[i]? = some mp → mp.stopping = true → 0 < mp.pid →
    time - mp.stopRequestTime.nanoseconds ≤ mp.shutdownTimeoutSec

/-- A child has been reaped, and its entry, if it has one, has let go of it. -/
structure Reaped (pid : Pid) (world next : World) : Prop where
  entry : next.processes = world.processes ∧ (∀ mp ∈ world.processes, mp.pid ≠ pid) ∨
    ∃ (i : Nat) (mp : ManagedProcess) (change : ManagedProcess → ManagedProcess),
      world.processes[i]? = some mp ∧ mp.pid = pid ∧
      next.processes = world.processes.modify i change ∧ (change mp).pid = -1 ∧
      (change mp).stopping = false ∧ (mp.stopping = true → (change mp).state = .stopped)
  children : ∀ child ∈ next.children, child.pid ≠ pid ∧
    ∃ old ∈ world.children, old.pid = child.pid ∧ old.serial = child.serial
  serialOf : ∀ other, other ≠ pid → next.serialOf other = world.serialOf other
  log : next.log = world.log
  mode : next.mode = world.mode
  time : next.script = world.script ∧ next.ros = world.ros ∨
    next.script = world.interact.script ∧ next.ros = world.interact.ros

theorem mem_forget {world : World} {pid : Pid} {child : Child}
    (hchild : child ∈ (world.forget pid).children) : child.pid ≠ pid ∧ child ∈ world.children := by
  obtain ⟨hold, hpid⟩ := List.mem_filter.mp hchild
  exact ⟨by simpa using hpid, hold⟩

theorem reapOne_reaped (child : Child) (status : WaitStatus) (world : World) :
    Reaped child.pid world (reapOne child status world) := by
  unfold reapOne
  split
  next hnone =>
    refine ⟨Or.inl ⟨rfl, by simpa using hnone⟩, fun other hother => ?_, fun pid hpid => ?_, rfl,
      rfl, Or.inl ⟨rfl, rfl⟩⟩
    · obtain ⟨hpid, hold⟩ := mem_forget hother
      exact ⟨hpid, other, hold, rfl, rfl⟩
    · exact world.serialOf_forget hpid
  next i hsome =>
    obtain ⟨hlt, hpid, _⟩ := List.findIdx?_eq_some_iff_getElem.mp hsome
    have hentry := List.getElem?_eq_getElem hlt
    generalize world.processes[i] = mp at hpid hentry
    rw [onEntry_some hentry]
    split
    next hstopping =>
      refine ⟨Or.inr ⟨i, mp, _, hentry, eq_of_beq hpid, rfl, rfl, rfl, fun _ => rfl⟩,
        fun other hother => ?_, fun pid hpid => ?_, rfl, rfl, Or.inl ⟨rfl, rfl⟩⟩
      · obtain ⟨hpid, hold⟩ := mem_forget hother
        exact ⟨hpid, other, hold, rfl, rfl⟩
      · exact world.serialOf_forget hpid
    next hstopping =>
      have hflag : mp.stopping = false := by simpa using hstopping
      refine ⟨Or.inr ⟨i, mp, _, hentry, eq_of_beq hpid, rfl, rfl, hflag,
          fun hset => absurd hset hstopping⟩,
        fun other hother => ?_, fun pid hpid => ?_, rfl, rfl, Or.inr ⟨rfl, rfl⟩⟩
      · obtain ⟨hpid, hold⟩ := mem_forget hother
        obtain ⟨old, hlisted, rfl⟩ := List.mem_map.mp hold
        exact ⟨hpid, old, hlisted, (Child.pass_pid _ _).symm, (Child.pass_serial _ _).symm⟩
      · exact (world.interact.serialOf_forget hpid).trans (world.serialOf_interact pid)

/-- An entry that is flagged after `force_kill` is another entry. -/
theorem forceKilled_flag {world : World} {i j : Nat} {mp after : ManagedProcess}
    (hafter : (world.forceKilled i mp).processes[j]? = some after) (hflag : after.stopping = true) :
    i ≠ j ∧ world.processes[j]? = some after := by
  rcases getElem?_modify_cases hafter with ⟨rfl, old, _, rfl⟩ | hother
  · cases hflag
  · exact hother

/-- What an iteration is made of keeps the invariant. -/
structure PollKeeps (invariant : World → Prop) : Prop where
  interact : ∀ world, invariant world → invariant world.interact
  reap : ∀ world child status, child ∈ world.children → child.status = some status →
    invariant world → invariant (reapOne child status world)
  kill : ∀ (world : World) (i : Nat) (mp : ManagedProcess), world.processes[i]? = some mp →
    0 < mp.pid → world.KillGuard mp → invariant world → invariant (world.forceKilled i mp)

namespace PollKeeps

variable {invariant : World → Prop} {world : World}

theorem reapLoop (h : PollKeeps invariant) (fuel : Nat) (hworld : invariant world) :
    invariant (World.reapLoop fuel world) := by
  induction fuel generalizing world with
  | zero => exact hworld
  | succ fuel ih =>
      unfold World.reapLoop
      dsimp only
      split
      next => exact h.interact world hworld
      next child status hwait =>
        obtain ⟨hchild, hstatus⟩ := waitpid_mem hwait
        exact ih (h.reap _ child status hchild hstatus (h.interact world hworld))

theorem timed : PollKeeps World.Timed where
  interact _ h := h
  reap world child status _ _ h := by
    have hreaped := reapOne_reaped child status world
    rcases hreaped.entry with ⟨hsame, _⟩ | ⟨i, mp, change, hmp, _, hprocesses, _, hflag, _⟩
    · unfold World.Timed
      rw [hsame]
      exact h
    · unfold World.Timed
      rw [hprocesses]
      refine forall_modify h fun same hsame hstopping => ?_
      cases hmp.symm.trans hsame
      exact absurd (hflag.symm.trans hstopping) (by decide)
  kill _ _ _ _ _ _ h := forall_modify h fun _ _ hstopping => by cases hstopping

theorem up : PollKeeps fun world => world.mode = .up where
  interact _ h := h
  reap world child status _ _ h := (reapOne_reaped child status world).mode.trans h
  kill _ _ _ _ _ _ h := h

/-- With all requests timed by the node clock, the loop of `check_stop_timeouts` throws no
exception, and settles each entry. -/
theorem timeouts (h : PollKeeps invariant) (hup : world.mode = .up) (htimed : world.Timed)
    (hworld : invariant world) :
    (World.checkStopTimeouts world).mode = .up ∧
      ((World.checkStopTimeouts world).Timed ∧
        (World.checkStopTimeouts world).ros = world.interact.ros ∧
        invariant (World.checkStopTimeouts world)) ∧
      ∀ i ∈ world.interact.indices,
        OnTime world.interact.ros i (World.checkStopTimeouts world) := by
  refine each_covers
    (fun later => later.Timed ∧ later.ros = world.interact.ros ∧ invariant later)
    (OnTime world.interact.ros) ?_ _ hup
    ⟨timed.interact world htimed, rfl, h.interact world hworld⟩
  rintro i later hup ⟨htimed, hros, hinv⟩
  cases hentry : later.processes[i]? with
  | none =>
      rw [onEntry_none hentry]
      exact ⟨hup, ⟨htimed, hros, hinv⟩, fun mp hmp => by simp [hentry] at hmp, fun _ hset => hset⟩
  | some mp =>
      rw [onEntry_some hentry]
      split
      next hdue =>
        have helapsed : world.interact.clock.sub? mp.stopRequestTime =
            some (world.interact.ros - mp.stopRequestTime.nanoseconds) :=
          if_pos (htimed mp (List.mem_of_getElem? hentry) hdue.1).symm
        rw [helapsed]
        dsimp only
        split
        next hlate =>
          have hguard : later.KillGuard mp := by
            refine Or.inl ⟨hdue.1, _, ?_, hlate⟩
            rw [clock, hros]
            exact helapsed
          rw [forceKill, onEntry_some hentry, if_neg (Int.not_le.mpr hdue.2)]
          refine ⟨hup, ⟨timed.kill later i mp hentry hdue.2 hguard htimed, hros,
            h.kill later i mp hentry hdue.2 hguard hinv⟩, fun same hsame hflag => ?_, ?_⟩
          · exact absurd rfl (forceKilled_flag hsame hflag).1
          · intro other hset same hsame hflag
            exact hset same (forceKilled_flag hsame hflag).2 hflag
        next hearly =>
          refine ⟨hup, ⟨htimed, hros, hinv⟩, fun same hsame _ _ => ?_, fun _ hset => hset⟩
          cases hentry.symm.trans hsame
          exact Int.not_lt.mp hearly
      next hidle =>
        refine ⟨hup, ⟨htimed, hros, hinv⟩, fun same hsame hflag hlive => ?_, fun _ hset => hset⟩
        cases hentry.symm.trans hsame
        exact absurd ⟨hflag, hlive⟩ hidle

/-- No request that has timed out is left. -/
theorem checkStopTimeouts (h : PollKeeps invariant) (hup : world.mode = .up) (htimed : world.Timed)
    (hworld : invariant world) :
    (World.checkStopTimeouts world).mode = .up ∧ (World.checkStopTimeouts world).Timed ∧
      (World.checkStopTimeouts world).Punctual ∧ invariant (World.checkStopTimeouts world) := by
  obtain ⟨hup', ⟨htimed', hros, hlast⟩, hsettled⟩ := h.timeouts hup htimed hworld
  refine ⟨hup', htimed', fun mp hmp hflag hlive => ?_, hlast⟩
  obtain ⟨i, hi⟩ := List.mem_iff_getElem?.mp hmp
  have hroutine : Routine .routine := rfl
  have hlength := length_of_names (acts_names (checkStopTimeouts_acts hroutine world))
  rw [hros]
  refine hsettled i (List.mem_range.mpr ?_) mp hi hflag hlive
  obtain ⟨hlt, _⟩ := List.getElem?_eq_some_iff.mp hi
  exact hlength ▸ hlt

/-- One iteration of the wait. -/
theorem poll (h : PollKeeps invariant) (hup : world.mode = .up) (htimed : world.Timed)
    (hworld : invariant world.interact) :
    (World.poll world).mode = .up ∧ (World.poll world).Timed ∧ (World.poll world).Punctual ∧
      invariant (World.poll world) := by
  have hreaped : (reapChildren world.interact).mode = .up := up.reapLoop _ hup
  unfold World.poll andThen
  rw [if_pos hreaped]
  exact h.checkStopTimeouts hreaped (timed.reapLoop _ htimed) (h.reapLoop _ hworld)

theorem shorter (bound : Nat) : PollKeeps fun world => world.script.length ≤ bound where
  interact world h := by
    simp only [World.interact, List.length_tail]
    omega
  reap world child status _ _ h := by
    rcases (reapOne_reaped child status world).time with ⟨hsame, _⟩ | ⟨htail, _⟩
    · rwa [hsame]
    · rw [htail]
      simp only [World.interact, List.length_tail]
      omega
  kill _ _ _ _ _ _ h := h

theorem still (time : Int) : PollKeeps fun world => world.script = [] ∧ world.ros = time where
  interact world h := by
    obtain ⟨hscript, htime⟩ := h
    simp only [World.interact, World.beat, hscript]
    exact ⟨rfl, by simpa using htime⟩
  reap world child status _ _ h := by
    have hread : world.interact.script = [] ∧ world.interact.ros = time := by
      simp only [World.interact, World.beat, h.1]
      exact ⟨rfl, by simpa using h.2⟩
    rcases (reapOne_reaped child status world).time with ⟨hscript, hros⟩ | ⟨hscript, hros⟩
    · rwa [hscript, hros]
    · rwa [hscript, hros]
  kill _ _ _ _ _ _ h := h

end PollKeeps

/-- Time passes only as the script says, and an iteration takes some of it. -/
theorem poll_consumes {world : World} (hup : world.mode = .up) (htimed : world.Timed)
    (hlater : world.ros < (poll world).ros) :
    (poll world).script.length + 1 ≤ world.script.length := by
  cases hscript : world.script with
  | nil =>
      have hread := (PollKeeps.still world.ros).interact world ⟨hscript, rfl⟩
      obtain ⟨_, _, _, _, hsame⟩ := (PollKeeps.still world.ros).poll hup htimed hread
      exact absurd hsame hlater.ne'
  | cons beat rest =>
      have hread : world.interact.script.length ≤ rest.length := by
        simp [World.interact, hscript]
      obtain ⟨_, _, _, hshorter⟩ := (PollKeeps.shorter rest.length).poll hup htimed hread
      rw [List.length_cons]
      omega

end World

/-! ## The entry and its child -/

/-- No child comes back, and no event is forgotten. -/
theorem Gone.mono {serial : Nat} {since : List Event} {world next : World}
    (h : Gone serial since world)
    (hchildren : ∀ child ∈ next.children, ∃ old ∈ world.children, old.serial = child.serial)
    (hlog : ∃ events, next.log = events ++ world.log) : Gone serial since next := by
  rcases h with hreaped | ⟨events, hevents, event, hevent, hkills⟩
  · refine Or.inl fun child hchild hserial => ?_
    obtain ⟨old, hold, hsame⟩ := hchildren child hchild
    exact hreaped old hold (hsame.trans hserial)
  · obtain ⟨new, hnew⟩ := hlog
    refine Or.inr ⟨new ++ events, by rw [hnew, hevents, List.append_assoc], event, ?_, hkills⟩
    exact List.mem_append_right new hevent

/-- The entry is as it was when the wait began, or its child is gone. -/
structure WaitsOn (i : Nat) (mp : ManagedProcess) (serial : Nat) (since : List Event)
    (world : World) : Prop where
  sound : Sound world
  numbered : Numbered world
  later : ∃ events, world.log = events ++ since
  phase : world.processes[i]? = some mp ∧ world.serialOf mp.pid = some serial ∨
    Halted i world ∧ Gone serial since world

namespace WaitsOn

variable {i : Nat} {mp : ManagedProcess} {serial : Nat} {since : List Event} {world next : World}

/-- A child that had the pid of the entry and has been reaped is the one it waited for. -/
theorem gone_of_reaped (h : WaitsOn i mp serial since world)
    (hserial : world.serialOf mp.pid = some serial) (hreaped : World.Reaped mp.pid world next) :
    Gone serial since next := by
  refine Or.inl fun child hchild hsame => ?_
  obtain ⟨hpid, old, hold, holdPid, holdSerial⟩ := hreaped.children child hchild
  obtain ⟨own, hown, hownPid, hownSerial⟩ := World.mem_serials_of_serialOf hserial
  obtain rfl : old = own := List.inj_on_of_nodup_map h.numbered.nodup hold hown
    (holdSerial.trans (hsame.trans hownSerial.symm))
  exact hpid (holdPid.symm.trans hownPid)

/-- Another entry changes. -/
theorem phase_of_other {j : Nat} {change : ManagedProcess → ManagedProcess}
    (h : WaitsOn i mp serial since world) (hij : j ≠ i)
    (hprocesses : next.processes = world.processes.modify j change)
    (hserial : world.processes[i]? = some mp → next.serialOf mp.pid = world.serialOf mp.pid)
    (hgone : Gone serial since world → Gone serial since next) :
    next.processes[i]? = some mp ∧ next.serialOf mp.pid = some serial ∨
      Halted i next ∧ Gone serial since next := by
  have hsame : next.processes[i]? = world.processes[i]? := by
    rw [hprocesses, List.getElem?_modify_ne _ _ hij]
  unfold Halted
  rw [hsame]
  exact h.phase.imp (fun hwaits => ⟨hwaits.1, (hserial hwaits.1).trans hwaits.2⟩)
    (And.imp_right hgone)

theorem interact (h : WaitsOn i mp serial since world) :
    WaitsOn i mp serial since world.interact := by
  refine ⟨(Act.env world).sound h.sound, (Act.env world).numbered h.numbered, h.later, ?_⟩
  refine h.phase.imp (fun hwaits => ⟨hwaits.1, ?_⟩) (And.imp_right fun hgone => ?_)
  · exact (world.serialOf_interact mp.pid).trans hwaits.2
  · refine hgone.mono (fun child hchild => ?_) ⟨[], rfl⟩
    obtain ⟨old, hold, rfl⟩ := List.mem_map.mp hchild
    exact ⟨old, hold, (Child.pass_serial _ _).symm⟩

theorem reapOne (hflag : mp.stopping = true) (hlive : 0 < mp.pid) {child : Child}
    {status : WaitStatus} (hchild : child ∈ world.children) (hstatus : child.status = some status)
    (h : WaitsOn i mp serial since world) :
    WaitsOn i mp serial since (World.reapOne child status world) := by
  have hroutine : Routine .routine := rfl
  have hacts := World.reapOne_acts hroutine hchild hstatus
  have hreaped := World.reapOne_reaped child status world
  have hgone : Gone serial since world → Gone serial since (World.reapOne child status world) := by
    intro hgone
    refine hgone.mono (fun other hother => ?_) ⟨[], hreaped.log⟩
    obtain ⟨_, old, hold, _, hsame⟩ := hreaped.children other hother
    exact ⟨old, hold, hsame⟩
  refine ⟨acts_sound hacts h.sound, hacts.keeps Numbered
    (fun _ _ _ _ hact => hact.numbered) h.numbered, hreaped.log ▸ h.later, ?_⟩
  rcases hreaped.entry with ⟨hsame, hforeign⟩ |
    ⟨j, other, change, hother, hpid, hprocesses, hnone, _, hstopped⟩
  · unfold Halted
    rw [hsame]
    refine h.phase.imp (fun hwaits => ⟨hwaits.1, ?_⟩) (And.imp_right hgone)
    have hne := hforeign mp (List.mem_of_getElem? hwaits.1)
    exact (hreaped.serialOf mp.pid hne).trans hwaits.2
  · by_cases hij : j = i
    · subst hij
      rcases h.phase with ⟨hentry, hserial⟩ | ⟨hhalted, _⟩
      · cases hentry.symm.trans hother
        refine Or.inr ⟨fun after hafter => ?_, h.gone_of_reaped hserial (hpid ▸ hreaped)⟩
        rw [hprocesses, getElem?_modify_self hentry] at hafter
        cases hafter
        exact ⟨hstopped hflag, hnone⟩
      · -- An entry without a child is not the one of the child.
        have hpos := h.sound.childPos _ (List.mem_map_of_mem hchild)
        rw [← hpid, (hhalted other hother).2] at hpos
        exact absurd hpos (by decide)
    · refine h.phase_of_other hij hprocesses (fun hentry => hreaped.serialOf mp.pid ?_) hgone
      intro hsame
      exact hij (h.sound.pidDistinct i j mp other hentry hother hlive
        (hsame.trans hpid.symm)).symm

theorem forceKilled {j : Nat} {other : ManagedProcess} (hother : world.processes[j]? = some other)
    (hpid : 0 < other.pid) (hguard : world.KillGuard other)
    (h : WaitsOn i mp serial since world) :
    WaitsOn i mp serial since (world.forceKilled j other) := by
  have hact := Act.forceKill world j other hother hpid hguard
  have hlog : (world.forceKilled j other).log =
      [.forceKilled other.pid (world.serialOf other.pid) other.shutdownTimeoutSec world.ros] ++
        world.log := rfl
  have hgone : Gone serial since world → Gone serial since (world.forceKilled j other) := by
    intro hgone
    refine hgone.mono (fun child hchild => ?_) ⟨_, hlog⟩
    obtain ⟨old, hold, rfl⟩ := List.mem_map.mp hchild
    exact ⟨old, hold, by split <;> rfl⟩
  obtain ⟨events, hevents⟩ := h.later
  rw [hevents, ← List.append_assoc] at hlog
  refine ⟨hact.sound h.sound, hact.numbered h.numbered, ⟨_, hlog⟩, ?_⟩
  by_cases hij : j = i
  · subst hij
    rcases h.phase with ⟨hentry, hserial⟩ | ⟨hhalted, _⟩
    · cases hentry.symm.trans hother
      exact Or.inr ⟨halted_of_modify rfl fun _ => ⟨rfl, rfl⟩,
        Or.inr ⟨_, hlog, _, List.mem_cons_self, hserial⟩⟩
    · rw [(hhalted other hother).2] at hpid
      exact absurd hpid (by decide)
  · exact h.phase_of_other hij rfl (fun _ => world.serialOf_markKilled other.pid mp.pid) hgone

theorem pollKeeps (hflag : mp.stopping = true) (hlive : 0 < mp.pid) :
    World.PollKeeps (WaitsOn i mp serial since) where
  interact _ h := h.interact
  reap _ _ _ hchild hstatus h := h.reapOne hflag hlive hchild hstatus
  kill _ _ _ hother hpid hguard h := h.forceKilled hother hpid hguard

end WaitsOn

/-! ## The wait -/

/-- The condition of the loop. -/
def Waits (i : Nat) (world : World) : Prop :=
  ∃ mp, world.processes[i]? = some mp ∧ mp.state = .stopping

theorem World.waitStopped_eq {i fuel count : Nat} {world : World}
    (hends : EndsAfter poll (Waits i) world count)
    (hup : ∀ k ≤ count, (poll^[k] world).mode = .up) (hfuel : count < fuel) :
    waitStopped i fuel world = poll^[count] world := by
  induction fuel generalizing world count with
  | zero => exact absurd hfuel (Nat.not_lt_zero count)
  | succ fuel ih =>
      unfold waitStopped
      cases count with
      | zero =>
          cases hentry : world.processes[i]? with
          | none =>
              rw [onEntry_none hentry]
              rfl
          | some mp =>
              rw [onEntry_some hentry, if_neg fun hstate => hends.done ⟨mp, hentry, hstate⟩]
              rfl
      | succ count =>
          obtain ⟨mp, hentry, hstate⟩ := hends.waiting 0 (Nat.succ_pos count)
          rw [Function.iterate_zero_apply] at hentry
          rw [onEntry_some hentry, if_pos hstate, Function.iterate_succ_apply]
          have hpolled : (poll world).mode = .up := hup 1 (Nat.succ_le_succ (Nat.zero_le count))
          refine (if_pos hpolled).trans (ih ⟨fun k hk => ?_, hends.done⟩ (fun k hk => ?_)
            (Nat.lt_of_succ_lt_succ hfuel))
          · exact hends.waiting (k + 1) (Nat.succ_lt_succ hk)
          · exact hup (k + 1) (Nat.succ_le_succ hk)

/-- The invariant of the wait. -/
structure Attends (i : Nat) (mp : ManagedProcess) (serial : Nat) (since : List Event)
    (world : World) : Prop where
  up : world.mode = .up
  timed : world.Timed
  waitsOn : WaitsOn i mp serial since world

namespace Attends

variable {i : Nat} {mp : ManagedProcess} {serial : Nat} {since : List Event} {world : World}

theorem poll (hflag : mp.stopping = true) (hlive : 0 < mp.pid)
    (h : Attends i mp serial since world) :
    Attends i mp serial since (World.poll world) ∧ (World.poll world).Punctual := by
  have hkeeps : World.PollKeeps (WaitsOn i mp serial since) := WaitsOn.pollKeeps hflag hlive
  obtain ⟨hup, htimed, hpunctual, hwaits⟩ :=
    hkeeps.poll h.up h.timed (hkeeps.interact world h.waitsOn)
  exact ⟨⟨hup, htimed, hwaits⟩, hpunctual⟩

/-- While the entry waits, nothing has changed about it. -/
theorem entry (h : Attends i mp serial since world) (hwaits : Waits i world) :
    world.processes[i]? = some mp := by
  rcases h.waitsOn.phase with ⟨hentry, _⟩ | ⟨hhalted, _⟩
  · exact hentry
  · obtain ⟨same, hsame, hstate⟩ := hwaits
    exact absurd (hstate.symm.trans (hhalted same hsame).1) (by decide)

/-- Once it does not, its child is gone. -/
theorem gone (h : Attends i mp serial since world) (hstate : mp.state = .stopping)
    (hdone : ¬ Waits i world) : Gone serial since world := by
  rcases h.waitsOn.phase with ⟨hentry, _⟩ | ⟨_, hgone⟩
  · exact absurd ⟨mp, hentry, hstate⟩ hdone
  · exact hgone

end Attends

section Wait

variable {i : Nat} {mp : ManagedProcess} {serial : Nat} {since : List Event} {asked : World}
  {delta : Int}

/-- Each iteration that takes time uses up some of the script. -/
theorem Attends.count_le (hflag : mp.stopping = true) (hlive : 0 < mp.pid) (hdelta : 0 < delta)
    (h : Attends i mp serial since asked) {bound count : Nat}
    (hadvances : Advances World.poll (Waits i) World.ros delta asked bound) (hcount : count ≤ bound)
    (hends : EndsAfter World.poll (Waits i) asked count) : count ≤ asked.script.length := by
  have hconsumes : Advances World.poll (Waits i) (fun world => -(world.script.length : Int)) 1 asked
      bound := by
    intro k hk hwaits
    have hattends := iterate_keeps (Attends i mp serial since)
      (fun _ hstate _ => (hstate.poll hflag hlive).1) h
      (fun j (hj : j < k) => hwaits j hj.le)
    have hlater := hadvances k hk hwaits
    rw [Function.iterate_succ_apply'] at hlater ⊢
    have hused := World.poll_consumes hattends.up hattends.timed (by omega)
    dsimp only
    omega
  have hused := clock_iterate hconsumes hcount hends.waiting
  rw [nsmul_eq_mul, mul_one] at hused
  omega

theorem Attends.ends (hflag : mp.stopping = true) (hlive : 0 < mp.pid)
    (hstate : mp.state = .stopping) (hdelta : 0 < delta)
    (htimeout : -delta ≤ mp.shutdownTimeoutSec)
    (hrequest : mp.stopRequestTime.nanoseconds + mp.shutdownTimeoutSec % delta <
      asked.ros + 2 * delta)
    (h : Attends i mp serial since asked)
    (hadvances : Advances World.poll (Waits i) World.ros delta asked
      (iterations mp.shutdownTimeoutSec delta).toNat) :
    ∃ count : Nat, (count : Int) ≤ iterations mp.shutdownTimeoutSec delta ∧
      EndsAfter World.poll (Waits i) asked count ∧ Gone serial since (World.poll^[count] asked) ∧
      (World.poll^[count] asked).mode = .up ∧
      World.waitStopped i (asked.script.length + 1) asked = World.poll^[count] asked := by
  have hpos := iterations_pos hdelta htimeout
  have hpassed := limit_lt_of_iterations hdelta htimeout hrequest
  have hkeeps : ∀ world, Attends i mp serial since world → Waits i world →
      Attends i mp serial since (World.poll world) := fun _ hworld _ => (hworld.poll hflag hlive).1
  have hlimit : ∀ world, Attends i mp serial since world → Waits i world →
      Waits i (World.poll world) →
        (World.poll world).ros ≤ mp.stopRequestTime.nanoseconds + mp.shutdownTimeoutSec := by
    intro world hworld _ hwaits
    obtain ⟨hnext, hpunctual⟩ := hworld.poll hflag hlive
    have htime := hpunctual mp (List.mem_of_getElem? (hnext.entry hwaits)) hflag hlive
    omega
  obtain ⟨count, hcount, hends⟩ :=
    exists_endsAfter_of_limit _ hkeeps hlimit h (by omega) hadvances hpassed
  have hattends : ∀ k ≤ count, Attends i mp serial since (World.poll^[k] asked) := fun k hk =>
    iterate_keeps _ hkeeps h fun j hj => hends.waiting j (hj.trans_le hk)
  have hlast := hattends count (Nat.le_refl count)
  refine ⟨count, by omega, hends, hlast.gone hstate hends.done, hlast.up, ?_⟩
  exact World.waitStopped_eq hends (fun k hk => (hattends k hk).up)
    (Nat.lt_succ_of_le (h.count_le hflag hlive hdelta hadvances hcount hends))

end Wait

/-! ## The request -/

/-- `handle_restart` up to its wait. -/
def World.askedToRestart (i : Nat) (mp : ManagedProcess) (world : World) : World :=
  if mp.state = .running ∨ mp.state = .starting then requestStop i world else world

/-- The state in which the wait begins. -/
def World.waitBegins (world : World) (name : String) (script : List Beat) (i : Nat)
    (mp : ManagedProcess) : World :=
  (world.entered ⟨.restart name, script⟩).askedToRestart i mp

/-- If the clock advances by that much in each iteration, the wait of the request ends within its
bound, with the child that the entry had reaped or killed, and the process is started. -/
def RestartReturns (delta : Int) (world : World) (name : String) (script : List Beat) : Prop :=
  ∀ i mp, world.findProcess name = some i → world.processes[i]? = some mp →
    Advances World.poll (Waits i) World.ros delta (world.waitBegins name script i mp)
      (iterations mp.shutdownTimeoutSec delta).toNat →
    ∃ count : Nat, (count : Int) ≤ iterations mp.shutdownTimeoutSec delta ∧
      EndsAfter World.poll (Waits i) (world.waitBegins name script i mp) count ∧
      (∀ serial, world.serialOf mp.pid = some serial →
        Gone serial world.log (World.poll^[count] (world.waitBegins name script i mp))) ∧
      ∃ success failure, step world ⟨.restart name, script⟩ = World.startManually i name success
        failure (World.poll^[count] (world.waitBegins name script i mp))

/-- The time-out is not negative by more than one iteration, a request that has been made already
is not later than the clock by more than the spare iteration makes good, and the entry does not
hold on to a child while it is RESTARTING. -/
structure Prompt (delta : Int) (world : World) (mp : ManagedProcess) : Prop where
  timeout : -delta ≤ mp.shutdownTimeoutSec
  request : mp.state = .stopping →
    mp.stopRequestTime.nanoseconds + mp.shutdownTimeoutSec % delta < world.ros + 2 * delta
  child : mp.state = .restarting → mp.pid ≤ 0

/-- A process in STOPPING is stopping, and there is one. -/
def StopsChildren (world : World) : Prop :=
  ∀ mp ∈ world.processes, mp.state = .stopping → mp.stopping = true ∧ 0 < mp.pid

theorem handleRestart_eq {world : World} {name : String} (hname : name ≠ "") {i : Nat}
    {mp : ManagedProcess} (hfind : world.findProcess name = some i)
    (hentry : world.processes[i]? = some mp) :
    ∃ success failure, World.handleRestart name world =
      (World.waitStopped i ((world.askedToRestart i mp).script.length + 1)
        (world.askedToRestart i mp)).andThen (World.startManually i name success failure) := by
  unfold World.handleRestart
  rw [if_neg hname]
  simp only [hfind, World.onEntry_some hentry]
  exact ⟨_, _, rfl⟩

section Restart

variable {world : World} {i : Nat} {mp : ManagedProcess} {delta : Int}

/-- A child has been asked to stop when the wait for it begins, and not in the future. -/
theorem askedToRestart_attends (hsound : Sound world) (hnumbered : Numbered world)
    (htimed : world.Timed) (hup : world.mode = .up) (hidle : world.deadline = none)
    (hentry : world.processes[i]? = some mp) (hlive : mp.state.live) (hdelta : 0 < delta)
    (hprompt : Prompt delta world mp) :
    ∃ asked serial, Attends i asked serial world.log (world.askedToRestart i mp) ∧
      asked.state = .stopping ∧ asked.stopping = true ∧ 0 < asked.pid ∧
      world.serialOf mp.pid = some serial ∧ asked.shutdownTimeoutSec = mp.shutdownTimeoutSec ∧
      asked.stopRequestTime.nanoseconds + asked.shutdownTimeoutSec % delta <
        (world.askedToRestart i mp).ros + 2 * delta := by
  have hmp := List.mem_of_getElem? hentry
  have hpid := hsound.pidLive mp hmp hlive
  obtain ⟨serial, hserial⟩ := World.serialOf_isSome (hsound.hasChild mp hmp hpid)
  have hacts : Acts Act Routine world (world.askedToRestart i mp) :=
    (World.askBeforeRestart_acts hsound hidle hentry).1
  have hsound' := acts_sound hacts hsound
  have hnumbered' := hacts.keeps Numbered (fun _ _ _ _ hact => hact.numbered) hnumbered
  by_cases hrising : mp.state = .running ∨ mp.state = .starting
  · have hasked : world.askedToRestart i mp = world.interact.stopRequested i mp.pid := by
      rw [World.askedToRestart, if_pos hrising, World.requestStop, World.onEntry_some hentry,
        if_neg (Int.not_le.mpr hpid)]
    rw [hasked] at hsound' hnumbered' ⊢
    have htimed' : (world.interact.stopRequested i mp.pid).Timed :=
      forall_modify htimed fun _ _ _ => rfl
    have hwaits : WaitsOn i { mp with
        stopping := true, stopRequestTime := world.interact.clock, state := .stopping } serial
        world.log (world.interact.stopRequested i mp.pid) := by
      refine ⟨hsound', hnumbered', ⟨[_], rfl⟩, Or.inl ⟨getElem?_modify_self hentry, ?_⟩⟩
      exact (world.serialOf_interact mp.pid).trans hserial
    refine ⟨_, serial, ⟨hup, htimed', hwaits⟩, rfl, rfl, hpid, hserial, rfl, ?_⟩
    have hrest := Int.emod_lt_of_pos mp.shutdownTimeoutSec hdelta
    show world.interact.ros + mp.shutdownTimeoutSec % delta < world.interact.ros + 2 * delta
    omega
  · have hasked : world.askedToRestart i mp = world := if_neg hrising
    rw [hasked] at hsound' hnumbered' ⊢
    have hstopping : mp.state = .stopping := by
      rw [ProcessState.live_iff] at hlive
      tauto
    have hwaits : WaitsOn i mp serial world.log world :=
      ⟨hsound, hnumbered, ⟨[], rfl⟩, Or.inl ⟨hentry, hserial⟩⟩
    exact ⟨mp, serial, ⟨hup, htimed, hwaits⟩, hstopping, hsound.stoppingFlag mp hmp hstopping,
      hpid, hserial, rfl, hprompt.request hstopping⟩

/-- An entry without a child is not asked, and nothing is waited for. -/
theorem askedToRestart_idle (hsound : Sound world) (hheld : AllHeld world)
    (hentry : world.processes[i]? = some mp) (hidle : ¬ mp.state.live)
    (hprompt : Prompt delta world mp) :
    world.askedToRestart i mp = world ∧ EndsAfter World.poll (Waits i) world 0 ∧
      world.serialOf mp.pid = none := by
  refine ⟨if_neg ?_, ⟨fun k hk => absurd hk (Nat.not_lt_zero k), ?_⟩, ?_⟩
  · rintro (hstate | hstate) <;> exact hidle (hstate ▸ trivial)
  · rintro ⟨same, hsame, hstate⟩
    cases hentry.symm.trans hsame
    exact hidle (hstate ▸ trivial)
  · by_contra hsome
    obtain ⟨serial, hserial⟩ := Option.ne_none_iff_exists'.mp hsome
    obtain ⟨child, hchild, hpid, _⟩ := World.mem_serials_of_serialOf hserial
    have hpos := hsound.childPos _ (List.mem_map_of_mem hchild)
    rw [hpid] at hpos
    rcases hheld mp (List.mem_of_getElem? hentry) hpos with hlive | ⟨hstate, _⟩
    · exact hidle hlive
    · exact absurd hpos (Int.not_lt.mpr (hprompt.child hstate))

theorem restartReturns (hready : Ready world) (hnumbered : Numbered world)
    (hheld : AllHeld world) (htimed : world.Timed) (hup : world.mode = .up) {name : String}
    (hname : name ≠ "") (hdelta : 0 < delta) (script : List Beat)
    (hprompt : ∀ i mp, world.findProcess name = some i → world.processes[i]? = some mp →
      Prompt delta world mp) : RestartReturns delta world name script := by
  intro i mp hfind hentry hadvances
  obtain ⟨htimeout, hrequest, hchild⟩ := hprompt i mp hfind hentry
  generalize hlabel : (⟨.restart name, script⟩ : Label) = label
  have hstep : step world label = World.handleRestart name (world.entered label) := by
    rw [← hlabel]
    exact if_pos hup
  have hbegins : world.waitBegins name script i mp = (world.entered label).askedToRestart i mp := by
    rw [← hlabel]
    rfl
  have hfind' : (world.entered label).findProcess name = some i := hfind
  have hentry' : (world.entered label).processes[i]? = some mp := hentry
  have hprompt' : Prompt delta (world.entered label) mp := ⟨htimeout, hrequest, hchild⟩
  have hsound : Sound (world.entered label) := hready.sound.of_same rfl rfl
  have hidle : (world.entered label).deadline = none := (hready.idle hup).1
  obtain ⟨success, failure, hrestart⟩ := handleRestart_eq hname hfind' hentry'
  rw [hstep, hrestart]
  rw [hbegins] at hadvances ⊢
  by_cases hlive : mp.state.live
  · obtain ⟨asked, serial, hattends, hstate, hflag, hpid, hserial, htimeout', hlater⟩ :=
      askedToRestart_attends hsound (hnumbered.of_same rfl rfl) htimed hup hidle hentry' hlive
        hdelta hprompt'
    rw [← htimeout'] at htimeout hadvances ⊢
    obtain ⟨count, hcount, hends, hgone, hup', hwait⟩ :=
      hattends.ends hflag hpid hstate hdelta htimeout hlater hadvances
    refine ⟨count, hcount, hends, fun other hother => ?_, success, failure, ?_⟩
    · cases hserial.symm.trans hother
      exact hgone
    · rw [hwait]
      exact if_pos hup'
  · obtain ⟨hasked, hends, hnone⟩ := askedToRestart_idle hsound hheld hentry' hlive hprompt'
    rw [hasked, World.waitStopped_eq hends (fun k hk => ?_) (Nat.succ_pos _)]
    · refine ⟨0, ?_, hends, fun serial hserial => ?_, success, failure, if_pos hup⟩
      · exact (iterations_pos hdelta htimeout).le
      · cases hnone.symm.trans hserial
    · rw [Nat.le_zero.mp hk]
      exact hup

end Restart

/-! ## Every reachable state -/

theorem Sound.stopsChildren {world : World} (h : Sound world) : StopsChildren world :=
  fun mp hmp hstate => ⟨h.stoppingFlag mp hmp hstate, h.pidLive mp hmp (hstate ▸ trivial)⟩

/-- In every reachable state, whatever the children do, a restart of one process returns in time,
unless the node clock has been set back since the stop request. -/
theorem run_restartReturns (config : Config) (nodes : List ProcessNode) (ros steady : Int)
    (labels : List Label) (name : String) (script : List Beat) (delta : Int) (hname : name ≠ "")
    (hdelta : 0 < delta) (hup : (run step (initial config nodes ros steady) labels).mode = .up)
    (hreaped : (run step (initial config nodes ros steady) labels).GiveUpsReaped)
    (hprompt : ∀ i mp,
      (run step (initial config nodes ros steady) labels).findProcess name = some i →
      (run step (initial config nodes ros steady) labels).processes[i]? = some mp →
        Prompt delta (run step (initial config nodes ros steady) labels) mp) :
    RestartReturns delta (run step (initial config nodes ros steady) labels) name script ∧
      StopsChildren (run step (initial config nodes ros steady) labels) := by
  have hstart := ready_initial config nodes ros steady
  have hready := run_ready labels hstart
  refine ⟨restartReturns hready ?_ ?_ ?_ hup hname hdelta script hprompt,
    hready.sound.stopsChildren⟩
  · exact run_numbered labels hstart (numbered_initial config nodes ros steady)
  · exact run_allHeld labels hstart (allHeld_initial config nodes ros steady)
  · exact (run_timesStops labels hstart (timesStops_initial config nodes ros steady)).timed hreaped

/-- The process is asked to stop. -/
def askedRun : List Label := [forkingTick 100, ⟨.timer, []⟩, ⟨.stop "mavros", []⟩]

/-- Ten seconds pass in each of three iterations, and the child does not exit. -/
def slowPolls : List Beat :=
  [{ elapsed := 10000000000 }, {}, {}, { elapsed := 10000000000 }, {}, {},
    { elapsed := 10000000000 }, {}, {}]

set_option maxRecDepth 4000 in
/-- The child is killed in the second iteration. -/
theorem restartReturns_askedRun :
    RestartReturns 10000000000 (run step (initial {} [mavros] 0 0) askedRun) "mavros" slowPolls ∧
      StopsChildren (run step (initial {} [mavros] 0 0) askedRun) := by
  have hprompt : ∀ mp ∈ (run step (initial {} [mavros] 0 0) askedRun).processes,
      -10000000000 ≤ mp.shutdownTimeoutSec ∧
      (mp.state = .stopping → mp.stopRequestTime.nanoseconds + mp.shutdownTimeoutSec % 10000000000 <
        (run step (initial {} [mavros] 0 0) askedRun).ros + 2 * 10000000000) ∧
      (mp.state = .restarting → mp.pid ≤ 0) := by decide
  refine run_restartReturns {} [mavros] 0 0 askedRun "mavros" slowPolls 10000000000 (by decide)
    (by decide) (by decide) (giveUpsReaped_of_verdicts (by decide)) fun i mp _ hmp => ?_
  obtain ⟨htimeout, hrequest, hchild⟩ := hprompt mp (List.mem_of_getElem? hmp)
  exact ⟨htimeout, hrequest, hchild⟩

/-- After the stop request the clock is set back by a thousand seconds. -/
def setBackRun : List Label := askedRun ++ [⟨.idle, [{ jump := -1000000000000 }]⟩]

set_option maxRecDepth 4000 in
/-- The restart request still waits when it should have ended. -/
theorem not_restartReturns_setBackRun :
    ¬ ∀ (config : Config) (nodes : List ProcessNode) (ros steady : Int) (labels : List Label)
        (name : String) (script : List Beat) (delta : Int), name ≠ "" → 0 < delta →
      (run step (initial config nodes ros steady) labels).mode = .up →
      (run step (initial config nodes ros steady) labels).GiveUpsReaped →
        RestartReturns delta (run step (initial config nodes ros steady) labels) name script ∧
          StopsChildren (run step (initial config nodes ros steady) labels) := by
  intro hall
  have hentry : ((run step (initial {} [mavros] 0 0) setBackRun).processes[0]?.map fun mp =>
      (mp.state, mp.shutdownTimeoutSec)) = some (.stopping, 10000000000) := by decide
  obtain ⟨mp, hmp, hfields⟩ := Option.map_eq_some_iff.mp hentry
  obtain ⟨hstopping, htimeout⟩ := Prod.mk.inj hfields
  have hreturns := (hall {} [mavros] 0 0 setBackRun "mavros" slowPolls 10000000000 (by decide)
    (by decide) (by decide) (giveUpsReaped_of_verdicts (by decide))).1 0 mp (by decide) hmp
  have hbegins :
      (run step (initial {} [mavros] 0 0) setBackRun).waitBegins "mavros" slowPolls 0 mp =
        (run step (initial {} [mavros] 0 0) setBackRun).entered ⟨.restart "mavros", slowPolls⟩ :=
    if_neg (by simp [hstopping])
  have hbound : iterations mp.shutdownTimeoutSec 10000000000 = 3 := by
    rw [htimeout]
    decide
  rw [hbegins, hbound] at hreturns
  have hadvances : ∀ k < 3,
      (World.poll^[k] ((run step (initial {} [mavros] 0 0) setBackRun).entered
        ⟨.restart "mavros", slowPolls⟩)).ros + 10000000000 ≤
      (World.poll^[k + 1] ((run step (initial {} [mavros] 0 0) setBackRun).entered
        ⟨.restart "mavros", slowPolls⟩)).ros := by decide
  have hwaits : ∀ k < 4,
      ((World.poll^[k] ((run step (initial {} [mavros] 0 0) setBackRun).entered
        ⟨.restart "mavros", slowPolls⟩)).processes[0]?.map (·.state)) = some .stopping := by decide
  obtain ⟨count, hcount, hends, _⟩ := hreturns fun k hk _ => hadvances k hk
  obtain ⟨same, hsame, hstate⟩ := Option.map_eq_some_iff.mp (hwaits count (by omega))
  exact hends.done ⟨same, hsame, hstate⟩

end AcflyRos.Daemon

import AcflyRos.Daemon.Invariant

/-! # Shutting everything down, and whole callbacks

`shutdown_all` and the service handlers rely on the entries being consistent: a
RUNNING entry has a child to send SIGINT to, and an entry that has left STOPPING
has none. The result is what one callback may do, by its request.
-/

namespace AcflyRos.Daemon

open AcflyRos.Transition AcflyRos.Table

/-- The entry has a child that has not been asked to stop. -/
def ProcessState.rising (state : ProcessState) : Prop := state = .starting ∨ state = .running

/-- `shutdown_all` has asked the entry to stop, if it had a child to ask. -/
def ManagedProcess.Asked (mp : ManagedProcess) : Prop :=
  mp.state = .starting ∨ mp.state = .running ∨ mp.state = .restarting → mp.pid ≤ 0

/-- What `shutdown_all` leaves behind. -/
def ManagedProcess.Settled (mp : ManagedProcess) : Prop :=
  mp.state = .stopped ∨ mp.state = .pending ∨ mp.state = .restarting ∧ mp.pid ≤ 0

/-- Routine actions and the bookkeeping of `shutdown_all`. -/
def Winding (kind : Kind) : Prop := kind = .routine ∨ kind = .stopAll

theorem Routine.winding (kind : Kind) (hkind : Routine kind) : Winding kind := Or.inl hkind

/-- What a winding action may make of an entry: a child is asked to stop, or the
entry lets go of it. -/
inductive Winds (before after : ManagedProcess) : Prop where
  | same (hstate : after.state = before.state) (hpid : after.pid = before.pid)
      (hstopping : after.stopping = before.stopping)
  | asked (hstate : after.state = .stopping) (hpid : after.pid = before.pid)
      (hstopping : after.stopping = true) (hlive : 0 < before.pid)
  | released (hstate : after.state = .stopped ∨ after.state = .restarting ∧ before.stopping = false)
      (hpid : after.pid = -1) (hlive : 0 < before.pid)

theorem Act.winds {kind : Kind} {world next : World} (hact : Act kind world next)
    (hkind : Winding kind) (hsound : Sound world) {i : Nat} {after : ManagedProcess}
    (hafter : next.processes[i]? = some after) :
    ∃ before, world.processes[i]? = some before ∧ Winds before after := by
  have hupdate : ∀ {j : Nat} {mp : ManagedProcess} {change : ManagedProcess → ManagedProcess},
      world.processes[j]? = some mp → next.processes = world.processes.modify j change →
      Winds mp (change mp) → ∃ before, world.processes[i]? = some before ∧ Winds before after := by
    intro j mp change hentry hprocesses hwinds
    rw [hprocesses] at hafter
    rcases getElem?_modify_cases hafter with ⟨rfl, same, hsame, rfl⟩ | ⟨_, hsame⟩
    · cases hentry.symm.trans hsame
      exact ⟨mp, hentry, hwinds⟩
    · exact ⟨after, hsame, .same rfl rfl rfl⟩
  have hcounted : ∀ {j : Nat} {change : ManagedProcess → ManagedProcess},
      next.processes = world.processes.modify j change → (∀ mp, Winds mp (change mp)) →
      ∃ before, world.processes[i]? = some before ∧ Winds before after := by
    intro j change hprocesses hwinds
    rw [hprocesses] at hafter
    rcases getElem?_modify_cases hafter with ⟨_, mp, hmp, rfl⟩ | ⟨_, hsame⟩
    · exact ⟨mp, hmp, hwinds mp⟩
    · exact ⟨after, hsame, .same rfl rfl rfl⟩
  cases hact with
  | fork _ _ _ _ _ _ _ _ hguard | forkFail _ _ _ _ _ _ hguard =>
      rcases hkind with rfl | rfl <;> exact False.elim hguard
  | reset =>
      split at hkind <;> rcases hkind with hkind | hkind <;> cases hkind
  | resetEntries | permitRestart | markRunning | armStale | giveUp | enter =>
      rcases hkind with hkind | hkind <;> cases hkind
  | requestStop _ j mp hentry hpid => exact hupdate hentry rfl (.asked rfl rfl rfl hpid)
  | forceKill _ j mp hentry hpid => exact hupdate hentry rfl (.released (Or.inl rfl) rfl hpid)
  | reapStopped _ j mp child _ hentry hpid hchild =>
      have hlive : 0 < mp.pid := hpid ▸ hsound.childPos _ (List.mem_map_of_mem hchild)
      exact hupdate hentry rfl (.released (Or.inl rfl) rfl hlive)
  | reapCrashed _ j mp child _ hentry hpid hchild _ hstopping =>
      have hlive : 0 < mp.pid := hpid ▸ hsound.childPos _ (List.mem_map_of_mem hchild)
      exact hupdate hentry rfl (.released (Or.inr ⟨rfl, hstopping⟩) rfl hlive)
  | resetBackoff | countRestart | growBackoff =>
      exact hcounted rfl fun _ => .same rfl rfl rfl
  | _ => exact ⟨after, hafter, .same rfl rfl rfl⟩

/-- A property of one entry that survives winding down. -/
theorem acts_winds {allow : Kind → Prop} (hwinding : ∀ kind, allow kind → Winding kind)
    (property : ManagedProcess → Prop)
    (hkeeps : ∀ before after, Winds before after → property before → property after)
    {world next : World} (hacts : Acts Act allow world next) (hsound : Sound world) {i : Nat}
    (hworld : ∀ mp, world.processes[i]? = some mp → property mp) :
    ∀ mp, next.processes[i]? = some mp → property mp := by
  refine (hacts.keeps (fun world => Sound world ∧
    ∀ mp, world.processes[i]? = some mp → property mp) ?_ ⟨hsound, hworld⟩).2
  intro kind world next hkind hact hworld
  refine ⟨hact.sound hworld.1, fun after hafter => ?_⟩
  obtain ⟨before, hbefore, hwinds⟩ := hact.winds (hwinding kind hkind) hworld.1 hafter
  exact hkeeps before after hwinds (hworld.2 before hbefore)

theorem Winds.not_rising {before after : ManagedProcess} (hwinds : Winds before after)
    (hbefore : ¬ before.state.rising) : ¬ after.state.rising := by
  cases hwinds with
  | same hstate => rwa [hstate]
  | asked hstate => simp [hstate, ProcessState.rising]
  | released hstate =>
      rcases hstate with hstate | ⟨hstate, _⟩ <;> simp [hstate, ProcessState.rising]

theorem Winds.keeps_asked {before after : ManagedProcess} (hwinds : Winds before after)
    (hbefore : before.Asked) : after.Asked := by
  unfold ManagedProcess.Asked at hbefore ⊢
  cases hwinds with
  | same hstate hpid => rwa [hstate, hpid]
  | asked hstate => simp [hstate]
  | released _ hpid => simp [hpid]

/-- An asked entry has no child in STARTING or RUNNING. -/
theorem Sound.not_rising {world : World} (hsound : Sound world) {mp : ManagedProcess}
    (hmp : mp ∈ world.processes) (hasked : mp.Asked) : ¬ mp.state.rising := by
  intro hrising
  have hlive := hsound.pidLive mp hmp (by rcases hrising with h | h <;> simp [h, ProcessState.live])
  have hpid := hasked (by rcases hrising with h | h <;> simp [h])
  exact Int.not_lt.mpr hpid hlive

namespace World

/-- The names and dependencies of the entries, which never change. -/
def fixed (world : World) : List (String × List String) :=
  world.processes.map fun mp => (mp.name, mp.dependencies)

def names (world : World) : List String := world.processes.map (·.name)

end World

theorem Act.fixed_eq {kind : Kind} {world next : World} (hact : Act kind world next) :
    next.fixed = world.fixed := by
  cases hact with
  | fork _ _ i mp pid startTime =>
      rw [World.fixed, World.forkSucceeded_processes]
      exact map_modify_same _ fun _ _ => rfl
  | reset _ i mp =>
      rw [World.fixed, World.resetForStart_processes]
      exact map_modify_same _ fun _ _ => rfl
  | resetEntries => simp only [World.fixed, World.resetEntries, World.note, List.map_map]; rfl
  | forkFail | requestStop | forceKill | reapStopped | reapCrashed | markRunning | resetBackoff
  | countRestart | growBackoff | permitRestart | giveUp => exact map_modify_same _ fun _ _ => rfl
  | _ => rfl

theorem acts_fixed {allow : Kind → Prop} {world next : World}
    (hacts : Acts Act allow world next) : next.fixed = world.fixed :=
  hacts.frame World.fixed fun _ _ _ _ hact => hact.fixed_eq

theorem World.names_of_fixed {world next : World} (hfixed : next.fixed = world.fixed) :
    next.names = world.names := by
  have hnames := congrArg (List.map Prod.fst) hfixed
  rwa [fixed, fixed, List.map_map, List.map_map] at hnames

theorem acts_names {allow : Kind → Prop} {world next : World}
    (hacts : Acts Act allow world next) : next.names = world.names :=
  World.names_of_fixed (acts_fixed hacts)

namespace World

theorem length_of_names {world next : World} (hnames : next.names = world.names) :
    next.processes.length = world.processes.length := by
  have hlength := congrArg List.length hnames
  rwa [names, names, List.length_map, List.length_map] at hlength

/-- An entry found by its name is an entry of that name. -/
theorem findProcess_some {world : World} {name : String} {i : Nat}
    (hfind : world.findProcess name = some i) :
    ∃ mp, world.processes[i]? = some mp ∧ mp.name = name := by
  obtain ⟨hlt, hname, _⟩ := List.findIdx?_eq_some_iff_getElem.mp hfind
  exact ⟨_, List.getElem?_eq_getElem hlt, eq_of_beq hname⟩

theorem findProcess_names (world : World) (name : String) :
    world.findProcess name = world.names.findIdx? (· == name) := by
  rw [findProcess, names, List.findIdx?_map]
  rfl

theorem findProcess_congr {world next : World} (hnames : next.names = world.names)
    (name : String) : next.findProcess name = world.findProcess name := by
  rw [findProcess_names, findProcess_names, hnames]

/-! ## SIGINT to every process -/

/-- Since `start`, an entry has kept its state or has been asked to stop. -/
def AskedSince (start world : World) : Prop :=
  ∀ (i : Nat) (after : ManagedProcess), world.processes[i]? = some after →
    ∃ before, start.processes[i]? = some before ∧ after.pid = before.pid ∧
      (after.state = before.state ∨ after.state = .stopping)

theorem AskedSince.refl (world : World) : world.AskedSince world :=
  fun _ after hafter => ⟨after, hafter, rfl, Or.inl rfl⟩

theorem AskedSince.trans {first second third : World} (hfirst : first.AskedSince second)
    (hsecond : second.AskedSince third) : first.AskedSince third := by
  intro i after hafter
  obtain ⟨middle, hmiddle, hpid, hstate⟩ := hsecond i after hafter
  obtain ⟨before, hbefore, hpid', hearlier⟩ := hfirst i middle hmiddle
  refine ⟨before, hbefore, hpid.trans hpid', ?_⟩
  rcases hstate with hsame | hstopping
  · rwa [hsame]
  · exact Or.inr hstopping

/-- One iteration of the loop that sends SIGINT. -/
theorem askToStop_spec {world : World} (hup : world.mode = .up) (hidle : world.deadline = none)
    (i : Nat) :
    let next := world.onEntry i fun mp world =>
      if mp.state = .starting ∨ mp.state = .running ∨ mp.state = .restarting then
        requestStop i world
      else world
    Acts Act Routine world next ∧ next.mode = .up ∧ world.AskedSince next ∧
      ∀ mp, next.processes[i]? = some mp → mp.Asked := by
  have hroutine : Routine .routine := rfl
  dsimp only
  cases hentry : world.processes[i]? with
  | none =>
      rw [onEntry_none hentry]
      exact ⟨Acts.refl world, hup, AskedSince.refl world, fun mp hmp => by simp [hentry] at hmp⟩
  | some mp =>
      have hkept : mp.Asked → Acts Act Routine world world ∧ world.mode = .up ∧
          world.AskedSince world ∧ ∀ same, world.processes[i]? = some same → same.Asked := by
        intro hasked
        refine ⟨Acts.refl world, hup, AskedSince.refl world, fun same hsame => ?_⟩
        cases hentry.symm.trans hsame
        exact hasked
      rw [onEntry_some hentry]
      split
      next hstate =>
        rw [requestStop, onEntry_some hentry]
        split
        next hpid => exact hkept fun _ => hpid
        next hpid =>
          refine ⟨(interact_acts hroutine world).tail hroutine
            (.requestStop _ i mp hentry (Int.not_le.mp hpid) hidle), hup, ?_, ?_⟩
          · intro j after hafter
            rcases getElem?_modify_cases hafter with ⟨_, before, hbefore, rfl⟩ | ⟨_, hsame⟩
            · exact ⟨before, hbefore, rfl, Or.inr rfl⟩
            · exact ⟨after, hsame, rfl, Or.inl rfl⟩
          · intro after hafter
            rcases getElem?_modify_cases hafter with ⟨_, before, _, rfl⟩ | ⟨hne, _⟩
            · simp [ManagedProcess.Asked]
            · exact absurd rfl hne
      next hstate => exact hkept fun hrising => absurd hrising hstate

theorem requestStopAll_acts {world : World} (hsound : Sound world) (hup : world.mode = .up)
    (hidle : world.deadline = none) :
    Acts Act Routine world (requestStopAll world) ∧ (requestStopAll world).mode = .up ∧
      world.AskedSince (requestStopAll world) ∧
      ∀ mp ∈ (requestStopAll world).processes, mp.Asked := by
  have hloop : (requestStopAll world).mode = .up ∧
      (Acts Act Routine world (requestStopAll world) ∧ world.AskedSince (requestStopAll world)) ∧
      ∀ i ∈ world.indices.reverse, ∀ mp, (requestStopAll world).processes[i]? = some mp →
        mp.Asked := by
    apply each_covers (fun later => Acts Act Routine world later ∧ world.AskedSince later)
      (fun i later => ∀ mp, later.processes[i]? = some mp → mp.Asked)
      ?_ world.indices.reverse hup ⟨Acts.refl world, AskedSince.refl world⟩
    intro i later hup hlater
    obtain ⟨hmore, hup', hasked, hstate⟩ := askToStop_spec hup
      ((acts_deadline Routine.ordinary hlater.1).trans hidle) i
    refine ⟨hup', ⟨hlater.1.trans hmore, hlater.2.trans hasked⟩, hstate, fun _ hother => ?_⟩
    exact acts_winds Routine.winding _ (fun _ _ => Winds.keeps_asked) hmore
      (acts_sound hlater.1 hsound) hother
  obtain ⟨hup, ⟨hacts, hasked⟩, hcovered⟩ := hloop
  refine ⟨hacts, hup, hasked, fun mp hmp => ?_⟩
  obtain ⟨i, hi⟩ := List.mem_iff_getElem?.mp hmp
  refine hcovered i ?_ mp hi
  obtain ⟨hlt, _⟩ := List.getElem?_eq_some_iff.mp hi
  rw [List.mem_reverse, indices, List.mem_range, ← length_of_names (acts_names hacts)]
  exact hlt

/-! ## Waiting for the children, and SIGKILL to those that remain -/

theorem andThen_up {world : World} {next : World → World}
    (hup : (world.andThen next).mode = .up) :
    world.mode = .up ∧ world.andThen next = next world := by
  unfold andThen at hup ⊢
  split at hup
  next hworld => exact ⟨hworld, if_pos hworld⟩
  next hworld => exact absurd hup hworld

/-- No entry is left to wait for, or the deadline has passed. -/
def WaitedFor (world : World) (deadline : Time) : Prop :=
  (∀ mp ∈ world.processes, mp.state = .stopped ∨ mp.state = .pending) ∨
    deadline.nanoseconds ≤ world.ros

theorem shutdownPoll_spec (fuel : Nat) {world : World} {deadline : Time}
    (hdeadline : world.deadline = some deadline) :
    Acts Act Routine world (shutdownPoll fuel world) ∧
      ((shutdownPoll fuel world).mode = .up → (shutdownPoll fuel world).WaitedFor deadline) := by
  have hroutine : Routine .routine := rfl
  induction fuel generalizing world with
  | zero => exact ⟨setMode_acts hroutine world .blocked, fun hup => by cases hup⟩
  | succ fuel ih =>
      have hread := interact_acts hroutine world
      have hdeadline' : world.interact.deadline = some deadline := hdeadline
      unfold shutdownPoll
      simp only [hdeadline']
      split
      next =>
        have hpolled : Acts Act Routine world
            ((reapChildren world.interact).andThen checkStopTimeouts) :=
          hread.trans (andThen_acts (reapChildren_acts hroutine _)
            fun _ => checkStopTimeouts_acts hroutine _)
        generalize (reapChildren world.interact).andThen checkStopTimeouts = polled at hpolled ⊢
        have hpause := interact_acts hroutine polled
        have hrest := ih ((acts_deadline Routine.ordinary (hpolled.trans hpause)).trans hdeadline)
        refine ⟨andThen_acts hpolled fun _ => ?_, fun hup => ?_⟩
        · split
          · exact Acts.refl polled
          · exact hpause.trans hrest.1
        · obtain ⟨_, hnext⟩ := andThen_up hup
          rw [hnext] at hup ⊢
          split at hup
          next hstopped =>
            rw [if_pos hstopped]
            refine Or.inl fun mp hmp => ?_
            simpa using List.all_eq_true.mp hstopped mp hmp
          next hstopped =>
            rw [if_neg hstopped]
            exact hrest.2 hup
      next hpassed => exact ⟨hread, fun _ => Or.inr (Int.not_lt.mp hpassed)⟩

/-- One iteration of the loop that sends SIGKILL. -/
theorem killOne_spec {world : World} {deadline : Time} (hsound : Sound world)
    (hdeadline : world.deadline = some deadline) (hwaited : world.WaitedFor deadline) (i : Nat) :
    let next := world.onEntry i fun mp world =>
      if mp.state ≠ .stopped ∧ mp.state ≠ .pending then forceKill i world else world
    Acts Act Routine world next ∧ next.mode = world.mode ∧ next.WaitedFor deadline ∧
      (∀ mp, next.processes[i]? = some mp → mp.Settled) ∧
      ∀ (j : Nat) (after : ManagedProcess), next.processes[j]? = some after →
        after.state = .stopped ∨ world.processes[j]? = some after := by
  dsimp only
  cases hentry : world.processes[i]? with
  | none =>
      rw [onEntry_none hentry]
      exact ⟨Acts.refl world, rfl, hwaited, fun mp hmp => by simp [hentry] at hmp,
        fun j after hafter => Or.inr hafter⟩
  | some mp =>
      have hkept : mp.Settled → Acts Act Routine world world ∧ world.mode = world.mode ∧
          world.WaitedFor deadline ∧
          (∀ same, world.processes[i]? = some same → same.Settled) ∧
          ∀ (j : Nat) (after : ManagedProcess), world.processes[j]? = some after →
            after.state = .stopped ∨ world.processes[j]? = some after := by
        intro hstate
        refine ⟨Acts.refl world, rfl, hwaited, fun same hsame => ?_,
          fun j after hafter => Or.inr hafter⟩
        cases hentry.symm.trans hsame
        exact hstate
      rw [onEntry_some hentry, forceKill, onEntry_some hentry]
      split
      next hstate =>
        split
        next hpid =>
          refine hkept ?_
          have hdead : ¬ mp.state.live := fun hlive =>
            Int.not_le.mpr (hsound.pidLive mp (List.mem_of_getElem? hentry) hlive) hpid
          unfold ManagedProcess.Settled
          cases hmp : mp.state <;> simp [hmp, ProcessState.live, hpid] at hdead ⊢
        next hpid =>
          have hpassed : deadline.nanoseconds ≤ world.ros := by
            rcases hwaited with hstopped | hpassed
            · rcases hstopped mp (List.mem_of_getElem? hentry) with hstopped | hpending
              · exact absurd hstopped hstate.1
              · exact absurd hpending hstate.2
            · exact hpassed
          refine ⟨Acts.single rfl (.forceKill world i mp hentry (Int.not_le.mp hpid)
            (Or.inr ⟨hstate.1, hstate.2, deadline, hdeadline, hpassed⟩)), rfl, Or.inr hpassed,
            ?_, ?_⟩
          · intro after hafter
            rcases getElem?_modify_cases hafter with ⟨_, _, _, rfl⟩ | ⟨hne, _⟩
            · exact Or.inl rfl
            · exact absurd rfl hne
          · intro j after hafter
            rcases getElem?_modify_cases hafter with ⟨_, _, _, rfl⟩ | ⟨_, hsame⟩
            · exact Or.inl rfl
            · exact Or.inr hsame
      next hstate =>
        refine hkept ?_
        unfold ManagedProcess.Settled
        cases hmp : mp.state <;> simp [hmp] at hstate ⊢

theorem killRemaining_acts {world : World} {deadline : Time} (hsound : Sound world)
    (hdeadline : world.deadline = some deadline) (hwaited : world.WaitedFor deadline)
    (hup : world.mode = .up) :
    Acts Act Routine world (killRemaining world) ∧ (killRemaining world).mode = .up ∧
      ∀ mp ∈ (killRemaining world).processes, mp.Settled := by
  have hloop : (killRemaining world).mode = .up ∧
      (Acts Act Routine world (killRemaining world) ∧ (killRemaining world).WaitedFor deadline) ∧
      ∀ i ∈ world.indices, ∀ mp, (killRemaining world).processes[i]? = some mp →
        mp.Settled := by
    refine each_covers
      (fun later => Acts Act Routine world later ∧ later.WaitedFor deadline)
      (fun i later => ∀ mp, later.processes[i]? = some mp → mp.Settled)
      ?_ world.indices hup ⟨Acts.refl world, hwaited⟩
    rintro i later hup ⟨hacts, hwaited⟩
    obtain ⟨hmore, hmode, hwaited', hstate, hothers⟩ := killOne_spec (acts_sound hacts hsound)
      ((acts_deadline Routine.ordinary hacts).trans hdeadline) hwaited i
    refine ⟨hmode.trans hup, ⟨hacts.trans hmore, hwaited'⟩, hstate, fun j hother mp hmp => ?_⟩
    rcases hothers j mp hmp with hstopped | hsame
    · exact Or.inl hstopped
    · exact hother mp hsame
  obtain ⟨hup, ⟨hacts, _⟩, hcovered⟩ := hloop
  refine ⟨hacts, hup, fun mp hmp => ?_⟩
  obtain ⟨i, hi⟩ := List.mem_iff_getElem?.mp hmp
  refine hcovered i ?_ mp hi
  obtain ⟨hlt, _⟩ := List.getElem?_eq_some_iff.mp hi
  rw [indices, List.mem_range, ← length_of_names (acts_names hacts)]
  exact hlt

/-- The phases of `shutdown_all`: until every process has been asked to stop, and
from then on. -/
theorem shutdownAll_acts {world : World} (hsound : Sound world) (hup : world.mode = .up)
    (hidle : world.deadline = none) (hfirst : world.shuttingDown = false) :
    ∃ asked, Acts Act Winding world asked ∧ world.AskedSince asked ∧
      (∀ mp ∈ asked.processes, mp.Asked) ∧
      Acts Act Winding asked (shutdownAll world) ∧
      ((shutdownAll world).mode = .up → (shutdownAll world).deadline = none ∧
        ∀ mp ∈ (shutdownAll world).processes, mp.Settled) := by
  have hstop : Winding .stopAll := Or.inr rfl
  have hbegin : Act .stopAll world { world with shuttingDown := true } := .shuttingDown world true
  obtain ⟨hacts, _, hasked, hall⟩ := requestStopAll_acts (hbegin.sound hsound) hup hidle
  have hasking := (Acts.single hstop hbegin).trans (hacts.mono Routine.winding)
  refine ⟨_, hasking, hasked, hall, ?_⟩
  have hsound' := acts_sound hasking hsound
  unfold shutdownAll
  simp only [hfirst, Bool.false_eq_true, if_false]
  generalize requestStopAll { world with shuttingDown := true } = asked at *
  have hset : Acts Act Winding asked { asked.interact with
      deadline := some ⟨asked.interact.ros + asked.interact.config.gracefulShutdownTimeout,
        .rosTime⟩ } :=
    (interact_acts (Routine.winding _ rfl) asked).tail hstop
      (.setDeadline _ fun mp hmp => not_or.mp (hsound'.not_rising hmp (hall mp hmp)))
  set begun := { asked.interact with deadline := some ⟨asked.interact.ros +
    asked.interact.config.gracefulShutdownTimeout, .rosTime⟩ } with hbegun
  obtain ⟨hpoll, hwaited⟩ := shutdownPoll_spec (begun.script.length + 1)
    (show begun.deadline = some _ from rfl)
  have hpolled := hset.trans (hpoll.mono Routine.winding)
  generalize shutdownPoll (begun.script.length + 1) begun = polled at *
  have hkill : polled.mode = .up → Acts Act Routine polled (killRemaining polled) ∧
      (killRemaining polled).mode = .up ∧
      ∀ mp ∈ (killRemaining polled).processes, mp.Settled := fun hup =>
    killRemaining_acts (acts_sound hpolled hsound') (acts_deadline Routine.ordinary hpoll)
      (hwaited hup) hup
  refine ⟨andThen_acts (andThen_acts hpolled fun hup => (hkill hup).1.mono Routine.winding)
    fun _ => Acts.single hstop (.clearDeadline _), fun hup => ?_⟩
  obtain ⟨hkilled, hlast⟩ := andThen_up hup
  obtain ⟨hup', hkilling⟩ := andThen_up hkilled
  rw [hlast, hkilling]
  exact ⟨rfl, (hkill hup').2.2⟩

end World

end AcflyRos.Daemon

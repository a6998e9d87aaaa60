import AcflyRos.Foundation.History
import AcflyRos.Daemon.Steps

/-! # The lives of an entry

The notes tell when a child of an entry began, ended or could not begin, and when the health
check gave up on it. An action that is no such turn leaves alone what the entry reports of
its last one.
-/

namespace AcflyRos.Daemon

open AcflyRos.Transition AcflyRos.Table

/-- The note is about a turn in the life of that entry. -/
def Note.isTurn (i : Nat) : Note → Bool
  | .started j _ | .forkFailed j _ _ | .stopped j _ | .crashed j _ _ | .forceKilled j
  | .gaveUp j => j == i
  | _ => false

/-- What an entry is after such a turn. -/
inductive Turned (i : Nat) (mp : ManagedProcess) : Note → Prop
  | started (time : Int) (hstate : mp.state = .starting) (htime : mp.startTime = ⟨time, .rosTime⟩) :
      Turned i mp (.started i time)
  | forkFailed (error : String) (time : Int) (hstate : mp.state = .restarting)
      (htime : mp.crashTime = ⟨time, .rosTime⟩)
      (hreason : mp.exitReason = "fork_failed:" ++ error) :
      Turned i mp (.forkFailed i error time)
  | stopped (status : WaitStatus) (hstate : mp.state = .stopped)
      (hcode : mp.exitCode = status.exitCode) (hreason : mp.exitReason = status.exitReason) :
      Turned i mp (.stopped i status)
  | crashed (status : WaitStatus) (time : Int) (hstate : mp.state = .restarting)
      (htime : mp.crashTime = ⟨time, .rosTime⟩)
      (hcode : mp.exitCode = status.exitCode) (hreason : mp.exitReason = status.exitReason) :
      Turned i mp (.crashed i status time)
  | forceKilled (hstate : mp.state = .stopped) : Turned i mp (.forceKilled i)

/-- What the entry keeps of its last turn, other than the reason of its exit. -/
structure SameLife (mp mp' : ManagedProcess) : Prop where
  startTime : mp'.startTime = mp.startTime
  crashTime : mp'.crashTime = mp.crashTime
  exitCode : mp'.exitCode = mp.exitCode
  rising : mp'.state.rising → mp.state.rising
  ended : mp'.state = .stopped ∨ mp'.state = .restarting → mp'.state = mp.state

theorem SameLife.refl (mp : ManagedProcess) : SameLife mp mp :=
  ⟨rfl, rfl, rfl, id, fun _ => rfl⟩

/-- The notes about the turns of that entry are the same. -/
def SameTurns (i : Nat) (earlier later : List Note) : Prop :=
  later = earlier ∨ ∃ note, note.isTurn i = false ∧ later = note :: earlier

theorem SameTurns.find?_eq {i : Nat} {earlier later : List Note} (h : SameTurns i earlier later)
    {which : Note → Bool} (hwhich : ∀ note, which note = true → note.isTurn i = true) :
    later.find? which = earlier.find? which := by
  rcases h with rfl | ⟨note, hnote, rfl⟩
  · rfl
  · refine List.find?_cons_of_neg fun hfound => ?_
    rw [hwhich note hfound] at hnote
    cases hnote

/-- What an action makes of an entry. -/
inductive Lives (world next : World) (i : Nat) (mp' : ManagedProcess) : Prop
  | quiet (mp : ManagedProcess) (hentry : world.processes[i]? = some mp) (hsame : SameLife mp mp')
      (hreason : mp'.exitReason = mp.exitReason)
      (hnotes : SameTurns i world.notes next.notes)
  | gaveUp (mp : ManagedProcess) (hentry : world.processes[i]? = some mp)
      (hsame : SameLife mp mp') (hstate : mp'.state = .running)
      (hreason : mp'.exitReason = "health_check_giveup:data_stall")
      (hnotes : next.notes = .gaveUp i :: world.notes)
  | turned (mp : ManagedProcess) (hentry : world.processes[i]? = some mp) (note : Note)
      (hturned : Turned i mp' note) (hnotes : next.notes = note :: world.notes)

namespace Lives

variable {world next : World} {i j : Nat} {mp' : ManagedProcess}
  {change : ManagedProcess → ManagedProcess}

theorem of_same (hprocesses : next.processes = world.processes) (hnotes : next.notes = world.notes)
    (hentry : next.processes[j]? = some mp') : Lives world next j mp' :=
  .quiet mp' (hprocesses ▸ hentry) (SameLife.refl mp') rfl (Or.inl hnotes)

/-- One entry changes, and its life goes on. -/
theorem of_quiet (hprocesses : next.processes = world.processes.modify i change)
    (hchange : ∀ mp, world.processes[i]? = some mp →
      SameLife mp (change mp) ∧ (change mp).exitReason = mp.exitReason)
    (hnotes : ∀ j, SameTurns j world.notes next.notes)
    (hentry : next.processes[j]? = some mp') : Lives world next j mp' := by
  rw [hprocesses] at hentry
  rcases getElem?_modify_cases hentry with ⟨rfl, mp, hmp, rfl⟩ | ⟨_, hmp⟩
  · exact .quiet mp hmp (hchange mp hmp).1 (hchange mp hmp).2 (hnotes i)
  · exact .quiet mp' hmp (SameLife.refl mp') rfl (hnotes j)

/-- One entry takes a turn. -/
theorem of_turned {note : Note} (hprocesses : next.processes = world.processes.modify i change)
    (hturned : ∀ mp, Turned i (change mp) note) (hother : ∀ j, i ≠ j → note.isTurn j = false)
    (hnotes : next.notes = note :: world.notes) (hentry : next.processes[j]? = some mp') :
    Lives world next j mp' := by
  rw [hprocesses] at hentry
  rcases getElem?_modify_cases hentry with ⟨rfl, mp, hmp, rfl⟩ | ⟨hij, hmp⟩
  · exact .turned mp hmp note (hturned mp) hnotes
  · exact .quiet mp' hmp (SameLife.refl mp') rfl (Or.inr ⟨note, hother j hij, hnotes⟩)

end Lives

/-- Every turn in the life of an entry is noted. -/
theorem Act.lives {kind : Kind} {world next : World} (hact : Act kind world next) {j : Nat}
    {mp' : ManagedProcess} (hentry : next.processes[j]? = some mp') : Lives world next j mp' := by
  have hother : ∀ {i : Nat}, ∀ j, i ≠ j → (i == j) = false :=
    fun j hij => beq_eq_false_iff_ne.mpr hij
  cases hact with
  | fork _ _ i mp pid startTime _ _ _ _ hclock =>
      refine Lives.of_turned (world.forkSucceeded_processes i mp.name pid startTime)
        (fun mp => .started startTime.nanoseconds rfl ?_) (fun j hij => hother j hij)
        (world.forkSucceeded_notes i mp.name pid startTime) hentry
      rw [← hclock]
  | forkFail _ _ i mp error =>
      exact Lives.of_turned rfl (fun mp => .forkFailed error world.ros rfl rfl rfl)
        (fun j hij => hother j hij) rfl hentry
  | reset _ i mp =>
      refine Lives.of_quiet (world.resetForStart_processes i mp.name) (fun mp _ => ⟨?_, rfl⟩)
        (fun _ => Or.inr ⟨_, rfl, world.resetForStart_notes i mp.name⟩) hentry
      exact ⟨rfl, rfl, rfl, fun hrising => by simp [ProcessState.rising] at hrising,
        fun hended => by simp at hended⟩
  | resetEntries =>
      simp only [World.resetEntries, World.note, List.getElem?_map,
        Option.map_eq_some_iff] at hentry
      obtain ⟨mp, hmp, rfl⟩ := hentry
      refine .quiet mp hmp ?_ rfl (Or.inr ⟨_, rfl, rfl⟩)
      exact ⟨rfl, rfl, rfl, fun hrising => by simp [ProcessState.rising] at hrising,
        fun hended => by simp at hended⟩
  | forceKill _ i mp hmp =>
      exact Lives.of_turned rfl (fun mp => .forceKilled rfl) (fun j hij => hother j hij) rfl hentry
  | reapStopped _ i mp child status =>
      exact Lives.of_turned rfl (fun mp => .stopped status rfl rfl rfl)
        (fun j hij => hother j hij) rfl hentry
  | reapCrashed _ i mp child status =>
      exact Lives.of_turned rfl (fun mp => .crashed status world.ros rfl rfl rfl rfl)
        (fun j hij => hother j hij) rfl hentry
  | giveUp _ i mp _ hmp hstate =>
      rcases getElem?_modify_cases hentry with ⟨rfl, same, hsame, rfl⟩ | ⟨hij, hmp'⟩
      · cases hmp.symm.trans hsame
        exact .gaveUp mp hmp ⟨rfl, rfl, rfl, id, fun _ => rfl⟩ hstate rfl rfl
      · exact .quiet mp' hmp' (SameLife.refl mp') rfl (Or.inr ⟨.gaveUp i, hother j hij, rfl⟩)
  | markRunning _ i mp hmp hstate =>
      refine Lives.of_quiet rfl (fun same hsame => ⟨?_, rfl⟩) (fun _ => Or.inl rfl) hentry
      cases hmp.symm.trans hsame
      exact ⟨rfl, rfl, rfl, fun _ => Or.inl hstate, fun hended => by simp at hended⟩
  | requestStop _ i mp =>
      refine Lives.of_quiet rfl (fun mp _ => ⟨?_, rfl⟩) (fun _ => Or.inl rfl) hentry
      exact ⟨rfl, rfl, rfl, fun hrising => by simp [ProcessState.rising] at hrising,
        fun hended => by simp at hended⟩
  | permitRestart | growBackoff =>
      exact Lives.of_quiet rfl (fun mp _ => ⟨⟨rfl, rfl, rfl, id, fun _ => rfl⟩, rfl⟩)
        (fun _ => Or.inl rfl) hentry
  | resetBackoff | countRestart =>
      exact Lives.of_quiet rfl (fun mp _ => ⟨⟨rfl, rfl, rfl, id, fun _ => rfl⟩, rfl⟩)
        (fun _ => Or.inr ⟨_, rfl, rfl⟩) hentry
  | _ => exact Lives.of_same rfl rfl hentry

end AcflyRos.Daemon

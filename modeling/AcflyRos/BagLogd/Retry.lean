import AcflyRos.BagLogd.Recording

/-! # Recovery of a lost recording

Whenever the node is meant to record and has no writer, the retry timer is set, and a
firing that finds space and opens a bag recovers. The `catch` block of
`retry_open_bag` does not take back `recording_`, which the others do: when the
rotation timer cannot be created there, the next firing takes the recording for
recovered and cancels the retry.
-/

namespace AcflyRos.BagLogd

open AcflyRos.Transition

/-- A node that should record and does not will retry. -/
def RetryPending (node : BagRecorderNode) : Prop :=
  node.ShouldRecord → node.writer = none → node.retryTimer = true

instance (node : BagRecorderNode) : Decidable (RetryPending node) :=
  inferInstanceAs (Decidable (_ → _ → _))

/-- A retry with enough space and an opening that succeeds brings the recording back. -/
def RetryRecovers (localtime : Int → Option Tm) (node : BagRecorderNode) (answers : Answers) :
    Prop :=
  node.ShouldRecord → node.writer = none → HasSpace answers node → answers.fault = none →
    (step localtime node ⟨.retry, answers⟩).recording = true ∧
      ∃ writer, (step localtime node ⟨.retry, answers⟩).writer = some writer ∧
        writer.isOpen = true

theorem Consistent.retryPending {node : BagRecorderNode} (h : Consistent node) :
    RetryPending node := by
  intro hshould hwriter
  apply h.pending ?_ hshould
  by_contra hactive
  obtain ⟨writer, hsome, _⟩ := h.active (by simpa using hactive)
  rw [hwriter] at hsome
  cases hsome

theorem Consistent.retryRecovers {node : BagRecorderNode} (h : Consistent node)
    (localtime : Int → Option Tm) {answers : Answers}
    (hset : ¬ RetryThrowsAt node ⟨.retry, answers⟩) : RetryRecovers localtime node answers := by
  intro hshould hwriter hspace hfault
  have hretry := h.retryPending hshould hwriter
  have hidle : node.recording = false := by
    by_contra hactive
    obtain ⟨writer, hsome, _⟩ := h.active (by simpa using hactive)
    rw [hwriter] at hsome
    cases hsome
  obtain ⟨after, set, hopens, hopened⟩ := retryOpenBag_opens localtime h.log hidle hshould hfault
    hspace fun hthrows => hset ⟨rfl, hretry, hidle, hshould, hfault, hspace, hthrows⟩
  have hstep : step localtime node ⟨.retry, answers⟩ =
      { after with rotationTimer := set, retryTimer := false } := by
    unfold step
    dsimp only
    rw [if_pos hretry, hopens]
  rw [hstep]
  obtain ⟨writer, hsome, hopen, _⟩ := hopened.writer
  exact ⟨hopened.recording, writer, hsome, hopen⟩

/-- In every run in which no firing of the retry timer opens a bag and then fails to set
the rotation timer. -/
theorem run_recovers (localtime : Int → Option Tm) (cfg : Config) (storage : Option Storage)
    (answers : Answers) (labels : List Label)
    (hlabels : EveryStep (step localtime) (fun node label => ¬ RetryThrowsAt node label)
      (initial localtime cfg storage answers) labels) :
    RetryPending (run (step localtime) (initial localtime cfg storage answers) labels) ∧
      ∀ retry, ¬ RetryThrowsAt
          (run (step localtime) (initial localtime cfg storage answers) labels) ⟨.retry, retry⟩ →
        RetryRecovers localtime
          (run (step localtime) (initial localtime cfg storage answers) labels) retry := by
  have hconsistent := run_consistent localtime cfg storage answers labels hlabels
  exact ⟨hconsistent.retryPending, fun retry hset => hconsistent.retryRecovers localtime hset⟩

/-- The disk fills up during a flight and stays full for the first retry. -/
def emergency (second : Answers) : List Label :=
  [⟨.state true, { time := 1000, createdAt := 1000 }⟩, ⟨.diskCheck, { freeMb := [100, 100] }⟩,
    ⟨.retry, { freeMb := [100] }⟩, ⟨.retry, second⟩]

theorem recovers_emergency :
    RetryPending (run (step epochDay) (initial epochDay {} none {})
        (emergency { freeMb := [9000], fault := some .creating })) ∧
      RetryRecovers epochDay (run (step epochDay) (initial epochDay {} none {})
        (emergency { freeMb := [9000], fault := some .creating }))
          { time := 1310, createdAt := 1310, freeMb := [9000] } := by
  have hrun := run_recovers epochDay {} none {}
    (emergency { freeMb := [9000], fault := some .creating })
    ⟨by decide, by decide, by decide, by decide, trivial⟩
  exact ⟨hrun.1, hrun.2 _ (by decide)⟩

/-- The second retry opens a bag, but the rotation timer cannot be created. The third
cancels the retry timer. -/
theorem not_recovers_emergency :
    ¬ ∀ (localtime : Int → Option Tm) (cfg : Config) (storage : Option Storage)
        (answers : Answers) (labels : List Label),
      RetryPending (run (step localtime) (initial localtime cfg storage answers) labels) ∧
        ∀ retry, RetryRecovers localtime
          (run (step localtime) (initial localtime cfg storage answers) labels) retry := by
  intro hall
  have hpending := (hall epochDay {} none {}
    (emergency { time := 1300, createdAt := 1300, freeMb := [9000], rotationTimerThrows := true } ++
      [⟨.retry, { freeMb := [9000] }⟩])).1
  exact absurd hpending (by decide)

end AcflyRos.BagLogd

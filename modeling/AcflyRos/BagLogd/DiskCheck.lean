import AcflyRos.BagLogd.Retry
import AcflyRos.BagLogd.Sweep

/-! # Making space

What `disk_check_cb` removes, query by query, and what becomes of the recording when that
was not enough. From then on space is made by somebody else: the check does nothing while
the node does not record, and the retry waits.
-/

namespace AcflyRos.BagLogd

open AcflyRos.Transition

/-- The answer to the query of that number. -/
def Answers.free (answers : Answers) (i : Nat) : Int := answers.freeMb[i]?.getD (-1)

/-- The query has not failed, and has found less than the threshold. -/
def BagRecorderNode.LowSpace (node : BagRecorderNode) (free : Int) : Prop :=
  0 ≤ free ∧ free < node.cfg.minRecordingFreeSpaceMb

instance (node : BagRecorderNode) (free : Int) : Decidable (node.LowSpace free) :=
  inferInstanceAs (Decidable (_ ∧ _))

/-- The inactive slices, the oldest first, and how many of them are removed. Query 0 comes before
the scan, query `i + 1` before the slice of that index. -/
structure Cleanup (node : BagRecorderNode) (answers : Answers) (found : List String) (k : Nat) :
    Prop where
  sorted : found.Pairwise (· ≤ ·)
  inactive : answers.opendirFails = false → ∀ name, name ∈ found ↔
    ∃ entry ∈ node.entries, entry.name = name ∧ entry.kind = .directory ∧
      node.isVisible answers entry = true
  unopened : answers.opendirFails = true → found = []
  within : k ≤ found.length
  low : ∀ i, i < k → node.LowSpace (answers.free (i + 1))
  stopped : k < found.length → ¬ node.LowSpace (answers.free (k + 1))

/-- The query after the loop, which may have been left after one that removed nothing. -/
def finalQuery (found : List String) (k : Nat) : Nat := if k < found.length then k + 2 else k + 1

/-- What a check that finds too little space does. -/
structure Cleaned (node : BagRecorderNode) (answers : Answers) (after : BagRecorderNode)
    (found : List String) (k : Nat) : Prop where
  logged : .cleaned found (found.take k) ∈ after.log
  removed : ∀ entry ∈ node.entries, entry.name ∈ found.take k →
    entry.name ∉ answers.unremovable → entry ∉ after.entries
  kept : ∀ entry ∈ node.entries, entry ∉ after.entries → entry.name ∈ found.take k ∨
    ∃ link ∈ node.entries, link.name = entry.name ∧ link.kind ≠ .directory
  nothingNew : ∀ entry ∈ after.entries, entry ∈ node.entries
  continues : ¬ node.LowSpace (answers.free (finalQuery found k)) →
    ∃ storage log, after = { node with storage, log }
  stops : node.LowSpace (answers.free (finalQuery found k)) →
    after.recording = false ∧ after.writer = none ∧
      (∀ writer, node.writer = some writer → .closed writer.id ∈ after.log) ∧
      after.rotationTimer = false ∧ after.retryTimer = true

/-- What a check does to a node that records. -/
structure ChecksDisk (node : BagRecorderNode) (answers : Answers) (after : BagRecorderNode) :
    Prop where
  idle : ¬ node.LowSpace (answers.free 0) → after = node
  cleans : node.LowSpace (answers.free 0) →
    ∃ found k, Cleanup node answers found k ∧ Cleaned node answers after found k

section Select

variable {node : BagRecorderNode}

theorem not_lowSpace_iff (free : Int) :
    ¬ node.LowSpace free ↔ free < 0 ∨ node.cfg.minRecordingFreeSpaceMb ≤ free := by
  unfold BagRecorderNode.LowSpace
  omega

/-- The loop removes the slices one after the other until a query says otherwise. -/
theorem selectOldest_spec {dirs : List String}
    (hinactive : ∀ name ∈ dirs, node.fullPath name ≠ node.currentBagPath) (free : List Int) :
    ∃ k, k ≤ dirs.length ∧ (node.selectOldest dirs free).1 = dirs.take k ∧
      (node.selectOldest dirs free).2 = free.drop (if k < dirs.length then k + 1 else k) ∧
      (∀ i, i < k → node.LowSpace (free[i]?.getD (-1))) ∧
      (k < dirs.length → ¬ node.LowSpace (free[k]?.getD (-1))) := by
  induction dirs generalizing free with
  | nil => exact ⟨0, Nat.le_refl 0, rfl, rfl, fun _ hi => absurd hi (Nat.not_lt_zero _),
      fun hlt => absurd hlt (Nat.not_lt_zero _)⟩
  | cons name rest ih =>
      have hguard := @not_lowSpace_iff node (free.headD (-1))
      unfold BagRecorderNode.selectOldest
      by_cases hlow : node.LowSpace (free.headD (-1))
      · obtain ⟨k, hk, hremoved, hleft, hbefore, hstop⟩ :=
          ih (fun other hother => hinactive other (List.mem_cons_of_mem name hother)) free.tail
        rw [if_neg fun hother => hguard.mpr hother hlow,
          if_neg (hinactive name List.mem_cons_self)]
        rw [List.headD_eq_getD, List.getD_eq_getElem?_getD] at hlow
        refine ⟨k + 1, by simpa using hk, congrArg (name :: ·) hremoved, ?_, ?_, ?_⟩
        · show (node.selectOldest rest free.tail).2 = _
          rw [hleft, List.drop_tail]
          simp only [List.length_cons, Nat.add_lt_add_iff_right]
          split <;> rfl
        · intro i hi
          cases i with
          | zero => exact hlow
          | succ i =>
              rw [← List.getElem?_tail]
              exact hbefore i (Nat.lt_of_succ_lt_succ hi)
        · intro hlt
          rw [← List.getElem?_tail]
          exact hstop (Nat.lt_of_succ_lt_succ hlt)
      · rw [if_pos (hguard.mp hlow)]
        rw [List.headD_eq_getD, List.getD_eq_getElem?_getD] at hlow
        refine ⟨0, Nat.zero_le _, rfl, ?_, fun _ hi => absurd hi (Nat.not_lt_zero _),
          fun _ => hlow⟩
        rw [if_pos (by simp), List.drop_one]

/-- What the scan lists. -/
theorem cleanup_of_scan (node : BagRecorderNode) (answers : Answers) :
    ∃ found, (if answers.opendirFails then [] else node.inactiveSlices answers) = found ∧
      (∀ name ∈ found, node.fullPath name ≠ node.currentBagPath) ∧
      ∀ k ≤ found.length, (∀ i, i < k → node.LowSpace (answers.free (i + 1))) →
        (k < found.length → ¬ node.LowSpace (answers.free (k + 1))) →
          Cleanup node answers found k := by
  obtain ⟨found, hfound, hsorted, hinactive⟩ := scanned_spec node answers
  refine ⟨found, hfound, hinactive, fun k hk hlow hstopped => ?_⟩
  refine ⟨hsorted, ?_, ?_, hk, hlow, hstopped⟩
  · intro hopened name
    rw [← hfound, if_neg (by simp [hopened]), BagRecorderNode.inactiveSlices,
      List.mem_insertionSort, List.mem_map]
    simp only [List.mem_filter, Bool.and_eq_true, beq_iff_eq]
    constructor
    · rintro ⟨entry, ⟨hentry, hvisible, hkind⟩, hname⟩
      exact ⟨entry, hentry, hname, hkind, hvisible⟩
    · rintro ⟨entry, hentry, hname, hkind, hvisible⟩
      exact ⟨entry, ⟨hentry, hvisible, hkind⟩, hname⟩
  · intro hfails
    rw [← hfound, if_pos hfails]

/-- Removal takes out the entries of these names, except where it fails. -/
theorem mem_entries_removeDirs (answers : Answers) (names : List String) (node : BagRecorderNode)
    (entry : Entry) :
    entry ∈ (names.foldl (BagRecorderNode.removeDir answers) node).entries ↔
      entry ∈ node.entries ∧ (entry.name ∈ names → entry.name ∈ answers.unremovable) := by
  rw [BagRecorderNode.entries_removeDirs, List.mem_filter, decide_eq_true_iff]

/-- A check that finds too little space removes what it selects and decides by the next query. -/
theorem diskCheckCb_low {answers : Answers} (hrecording : node.recording = true)
    (hlow : node.LowSpace (answers.free 0)) {found removed : List String} {later : List Int}
    (hfound : (if answers.opendirFails then [] else node.inactiveSlices answers) = found)
    (hselected : node.selectOldest found answers.freeMb.tail = (removed, later)) :
    ∃ links, (∀ name ∈ links, name ∈ node.strayLinks answers) ∧
      ∃ left, left = (links ++ removed).foldl (BagRecorderNode.removeDir answers)
          (node.record (.cleaned found removed)) ∧
        node.diskCheckCb answers =
          if node.LowSpace (later.headD (-1)) then
            { left with recording := false }.stopRotationTimer.closeWriter.scheduleRetry
          else left := by
  refine ⟨if answers.opendirFails then [] else node.strayLinks answers, ?_, _, rfl, ?_⟩
  · intro name hname
    split at hname
    · cases hname
    · exact hname
  · obtain ⟨hqueried, hless⟩ := hlow
    unfold Answers.free at hqueried hless
    rw [← List.getD_eq_getElem?_getD, ← List.headD_eq_getD] at hqueried hless
    have hcfg : ∀ names : List String, (names.foldl (BagRecorderNode.removeDir answers)
        (node.record (.cleaned found removed))).cfg = node.cfg := by
      intro names
      obtain ⟨storage, honly⟩ := BagRecorderNode.removeDirs_onlyStorage answers names
        (node.record (.cleaned found removed))
      rw [honly]
      rfl
    unfold BagRecorderNode.diskCheckCb
    dsimp only
    rw [if_neg (by simp [hrecording]), if_neg (Int.not_lt.mpr hqueried),
      if_neg (Int.not_le.mpr hless), hfound, hselected]
    dsimp only
    rw [hcfg]
    rfl

theorem cleaned_of_low {answers : Answers} (hrecording : node.recording = true)
    (hlow : node.LowSpace (answers.free 0)) :
    ∃ found k, Cleanup node answers found k ∧
      Cleaned node answers (node.diskCheckCb answers) found k := by
  obtain ⟨found, hfound, hinactive, hcleanup⟩ := cleanup_of_scan node answers
  obtain ⟨k, hk, hremoved, hleft, hbefore, hstop⟩ :=
    selectOldest_spec hinactive answers.freeMb.tail
  simp only [List.getElem?_tail] at hbefore hstop
  rw [List.drop_tail] at hleft
  generalize hselected : node.selectOldest found answers.freeMb.tail = selected at hremoved hleft
  obtain ⟨removed, later⟩ := selected
  obtain rfl : removed = found.take k := hremoved
  have hfinal : later.headD (-1) = answers.free (finalQuery found k) := by
    rw [show later = _ from hleft, List.headD_eq_getD, List.getD_eq_getElem?_getD,
      List.getElem?_drop]
    unfold Answers.free finalQuery
    split <;> rfl
  obtain ⟨links, hlinks, left, hcleaned, hchecked⟩ :=
    diskCheckCb_low hrecording hlow hfound hselected
  rw [hfinal] at hchecked
  obtain ⟨storage, honly⟩ := BagRecorderNode.removeDirs_onlyStorage answers
    (links ++ found.take k) (node.record (.cleaned found (found.take k)))
  rw [← hcleaned] at honly
  have hentries : ∀ entry, entry ∈ (node.diskCheckCb answers).entries ↔ entry ∈ node.entries ∧
      (entry.name ∈ links ++ found.take k → entry.name ∈ answers.unremovable) := by
    intro entry
    have hstorage : (node.diskCheckCb answers).storage = left.storage := by
      rw [hchecked]
      split
      · exact BagRecorderNode.closeWriter_storage _
      · rfl
    have hsame : (node.diskCheckCb answers).entries = left.entries :=
      congrArg (fun storage => storage.elim [] Storage.entries) hstorage
    rw [hsame, hcleaned, mem_entries_removeDirs]
    rfl
  refine ⟨found, k, hcleanup k hk hbefore hstop, ?_, ?_, ?_, ?_, ?_, ?_⟩
  · rw [hchecked]
    have hlogged : Event.cleaned found (found.take k) ∈ left.log := by
      rw [honly]
      exact List.mem_cons_self
    split
    · exact (BagRecorderNode.closeWriter_closes _).2.1.subset hlogged
    · exact hlogged
  · intro entry _ htaken hremovable hleft
    exact hremovable (((hentries entry).mp hleft).2 (List.mem_append_right links htaken))
  · intro entry hentry hgone
    rw [hentries] at hgone
    have hname : entry.name ∈ links ++ found.take k := by
      by_contra hother
      exact hgone ⟨hentry, fun hname => absurd hname hother⟩
    rcases List.mem_append.mp hname with hlink | htaken
    · obtain ⟨link, hmem, _, _, ⟨hother, _⟩ | ⟨hunlink, hkind, _⟩⟩ :=
        BagRecorderNode.mem_strayLinks (hlinks entry.name hlink)
      · cases hother
      · exact Or.inr ⟨link, hmem, (Deletion.unlink.inj hunlink).symm, hkind⟩
    · exact Or.inl htaken
  · exact fun entry hleft => ((hentries entry).mp hleft).1
  · intro henough
    rw [hchecked, if_neg henough, honly]
    exact ⟨storage, _, rfl⟩
  · intro hless
    rw [hchecked, if_pos hless]
    obtain ⟨hwriter, _, hclosed⟩ := BagRecorderNode.closeWriter_closes
      (BagRecorderNode.stopRotationTimer { left with recording := false })
    have hcontrol : (BagRecorderNode.stopRotationTimer
        { left with recording := false }).closeWriter.control =
          (left.cfg, left.armed, false, false, left.retryTimer) :=
      BagRecorderNode.closeWriter_control
    simp only [BagRecorderNode.control, Prod.mk.injEq] at hcontrol
    refine ⟨hcontrol.2.2.1, hwriter, ?_, hcontrol.2.2.2.1, rfl⟩
    intro writer hsome
    apply hclosed writer
    rw [honly]
    exact hsome

theorem diskCheckCb_enough {answers : Answers} (henough : ¬ node.LowSpace (answers.free 0)) :
    node.diskCheckCb answers = node := by
  rw [not_lowSpace_iff, Answers.free, ← List.getD_eq_getElem?_getD, ← List.headD_eq_getD]
    at henough
  unfold BagRecorderNode.diskCheckCb
  dsimp only
  rcases henough with hfailed | henough
  · rw [if_pos hfailed, ite_self]
  · rw [if_pos henough, ite_self, ite_self]

end Select

/-- Whatever is in the storage directory, whatever the queries answer and whichever removals
fail. -/
theorem diskCheckCb_checksDisk (localtime : Int → Option Tm) (node : BagRecorderNode)
    (answers : Answers) (hrecording : node.recording = true) :
    ChecksDisk node answers (step localtime node ⟨.diskCheck, answers⟩) :=
  ⟨diskCheckCb_enough, cleaned_of_low hrecording⟩

/-- A flight over three slices of earlier ones. -/
def overOld : BagRecorderNode :=
  run (step epochDay)
    (initial epochDay { cleanupMode := "retain" }
      (some ⟨0, [⟨"19691231233000", .directory⟩, ⟨"19691231232000", .directory⟩,
        ⟨"19691231231000", .directory⟩]⟩) {})
    [⟨.state true, { time := 1000, createdAt := 1000 }⟩]

/-- The second of them cannot be removed, and the third need not be. -/
theorem checksDisk_overOld :
    ChecksDisk overOld
      { freeMb := [100, 100, 100, 9000, 9000], unremovable := ["19691231232000"] }
      (step epochDay overOld ⟨.diskCheck,
        { freeMb := [100, 100, 100, 9000, 9000], unremovable := ["19691231232000"] }⟩) :=
  diskCheckCb_checksDisk epochDay overOld _ (by decide)

/-! ## After an emergency stop -/

/-- A check has stopped the recording, and nothing has brought it back since. -/
def Stopped (localtime : Int → Option Tm) (node : BagRecorderNode) (check : Answers)
    (later : List Label) : Prop :=
  node.recording = true ∧ (step localtime node ⟨.diskCheck, check⟩).recording = false ∧
    EveryStep (step localtime) (fun node label => (step localtime node label).recording = false)
      (step localtime node ⟨.diskCheck, check⟩) later

instance (localtime : Int → Option Tm) (node : BagRecorderNode) (check : Answers)
    (later : List Label) : Decidable (Stopped localtime node check later) :=
  inferInstanceAs (Decidable (_ ∧ _ ∧ _))

/-- A node without a recording that will retry as long as it should record. -/
structure Waiting (node : BagRecorderNode) : Prop where
  idle : node.recording = false
  pending : node.ShouldRecord → node.retryTimer = true

/-- The check leaves the node alone, and the retry does too until it finds space. -/
structure AwaitsSpace (localtime : Int → Option Tm) (node : BagRecorderNode) : Prop where
  check : ∀ answers, step localtime node ⟨.diskCheck, answers⟩ = node
  deferred : ∀ answers, ¬ HasSpace answers node → step localtime node ⟨.retry, answers⟩ = node
  recovers : ∀ check answers, answers.fault = none →
    ((step localtime (step localtime node ⟨.diskCheck, check⟩) ⟨.retry, answers⟩).recording = true ↔
      HasSpace answers node)

section Waiting

variable {localtime : Int → Option Tm} {answers : Answers} {node : BagRecorderNode}

theorem diskCheckCb_idle (hidle : node.recording = false) : node.diskCheckCb answers = node := by
  unfold BagRecorderNode.diskCheckCb
  exact if_pos hidle

theorem retryOpenBag_deferred (hidle : node.recording = false) (hshould : node.ShouldRecord)
    (hspace : ¬ HasSpace answers node) : node.retryOpenBag localtime answers = node := by
  unfold BagRecorderNode.retryOpenBag
  rw [if_neg (by simp [hidle]), if_neg (not_disarmed_iff.mpr hshould), if_pos (not_not.mp hspace)]

/-- Whether the flag is set depends on the opening alone, whatever becomes of the timer. -/
theorem tryRetry_recording {handler : BagRecorderNode → BagRecorderNode}
    (hhandler : ∀ failed, (handler failed).recording = failed.recording)
    (hidle : node.recording = false) :
    (tryCatch (andThen (andThen (andThen (node.openNewBag localtime answers)
      BagRecorderNode.startRecording) (BagRecorderNode.startRotationTimer answers))
        fun node => (.returned, node.cancelRetry)) handler).recording = true ↔
      answers.fault = none := by
  have hcontrol : (node.openNewBag localtime answers).2.control = node.control :=
    BagRecorderNode.openNewBag_control
  have hreturns : (node.openNewBag localtime answers).1 = .returned ↔ answers.fault = none :=
    openNewBag_returns_iff
  rw [← hreturns]
  generalize node.openNewBag localtime answers = result at hcontrol
  obtain ⟨exit, opened⟩ := result
  simp only [BagRecorderNode.control, Prod.mk.injEq] at hcontrol
  cases exit with
  | threw =>
      refine iff_of_false ?_ (fun h => by cases h)
      show (handler opened).recording ≠ true
      rw [hhandler, hcontrol.2.2.1, hidle]
      exact Bool.false_ne_true
  | returned =>
      refine iff_of_true ?_ rfl
      have hblock : andThen (.returned, opened) BagRecorderNode.startRecording =
          (.returned, { opened with recording := true }) := rfl
      rw [hblock]
      rcases BagRecorderNode.startRotationTimer_cases answers { opened with recording := true } with
        ⟨_, hstart⟩ | ⟨hstart, _⟩
      · rw [andThen, hstart]
        rfl
      · rw [andThen, hstart]
        exact hhandler _

theorem retryOpenBag_recording (hidle : node.recording = false) (hshould : node.ShouldRecord) :
    (node.retryOpenBag localtime answers).recording = true ↔
      HasSpace answers node ∧ answers.fault = none := by
  by_cases hspace : HasSpace answers node
  · rw [and_iff_right hspace]
    unfold BagRecorderNode.retryOpenBag
    rw [if_neg (by simp [hidle]), if_neg (not_disarmed_iff.mpr hshould), if_neg hspace]
    apply tryRetry_recording ?_ hidle
    intro failed
    exact congrArg (·.2.2.1) (@BagRecorderNode.resetWriter_control failed)
  · rw [retryOpenBag_deferred hidle hshould hspace, hidle]
    simp [hspace]

theorem Waiting.awaitsSpace (h : Waiting node) (hshould : node.ShouldRecord) :
    AwaitsSpace localtime node := by
  have hcheck : ∀ answers, step localtime node ⟨.diskCheck, answers⟩ = node :=
    fun _ => diskCheckCb_idle h.idle
  have hretry : ∀ answers, step localtime node ⟨.retry, answers⟩ =
      node.retryOpenBag localtime answers := fun _ => if_pos (h.pending hshould)
  refine ⟨hcheck, ?_, ?_⟩
  · intro answers hspace
    rw [hretry]
    exact retryOpenBag_deferred h.idle hshould hspace
  · intro check answers hfault
    rw [hcheck, hretry, retryOpenBag_recording h.idle hshould]
    exact and_iff_left hfault

theorem Waiting.of_control {after : BagRecorderNode} (h : Waiting node)
    (hcontrol : after.control = node.control) : Waiting after := by
  simp only [BagRecorderNode.control, Prod.mk.injEq] at hcontrol
  refine ⟨hcontrol.2.2.1.trans h.idle, ?_⟩
  unfold BagRecorderNode.ShouldRecord
  rw [hcontrol.1, hcontrol.2.1, hcontrol.2.2.2.2]
  exact h.pending

/-- A node that is not meant to record need not wait for anything. -/
theorem Waiting.of_disarmed (hidle : node.recording = false)
    (hmode : node.cfg.armRecordEnabled = true) (hdisarmed : node.armed = false) :
    Waiting node := by
  refine ⟨hidle, ?_⟩
  rintro (halways | harmed)
  · exact absurd (halways.symm.trans hmode) Bool.false_ne_true
  · exact absurd (hdisarmed.symm.trans harmed) Bool.false_ne_true

/-- A `try` block that has opened a bag would have set the flag. -/
theorem tryRecording_waiting {handler : BagRecorderNode → BagRecorderNode}
    (hhandler : ∀ failed, Waiting (handler failed))
    (hafter : (tryCatch (andThen (andThen (node.openNewBag localtime answers)
      BagRecorderNode.startRecording) (BagRecorderNode.startRotationTimer answers))
        handler).recording = false) :
    Waiting (tryCatch (andThen (andThen (node.openNewBag localtime answers)
      BagRecorderNode.startRecording) (BagRecorderNode.startRotationTimer answers)) handler) := by
  generalize node.openNewBag localtime answers = result at hafter ⊢
  obtain ⟨exit, opened⟩ := result
  cases exit with
  | threw => exact hhandler opened
  | returned =>
      have hblock : andThen (.returned, opened) BagRecorderNode.startRecording =
          (.returned, { opened with recording := true }) := rfl
      rw [hblock, andThen] at hafter ⊢
      rcases BagRecorderNode.startRotationTimer_cases answers { opened with recording := true } with
        ⟨_, hstart⟩ | ⟨hstart, _⟩
      · rw [hstart] at hafter
        cases hafter
      · rw [hstart]
        exact hhandler _

theorem armStateCb_waiting (h : Waiting node) (hmode : node.cfg.armRecordEnabled = true)
    {armed : Bool} (hafter : (node.armStateCb localtime answers armed).recording = false) :
    Waiting (node.armStateCb localtime answers armed) := by
  unfold BagRecorderNode.armStateCb at hafter ⊢
  cases armed with
  | true =>
      rw [if_pos rfl] at hafter ⊢
      split at hafter
      next harmed =>
        rw [if_pos harmed]
        exact h
      next hdisarmed =>
        rw [if_neg hdisarmed]
        dsimp only at hafter ⊢
        have hprepared : (node.prepareArm answers).armed = true :=
          congrArg (·.2.1) prepareArm_control
        rw [if_neg (by simp [hprepared])] at hafter ⊢
        exact tryRecording_waiting (fun _ => ⟨rfl, fun _ => rfl⟩) hafter
  | false =>
      rw [if_neg Bool.false_ne_true]
      split
      · exact h
      · dsimp only
        rw [if_pos hmode]
        have hcontrol := @BagRecorderNode.closeWriter_control
          (BagRecorderNode.stopRotationTimer { node with armed := false, recording := false })
        simp only [BagRecorderNode.control, Prod.mk.injEq] at hcontrol
        exact Waiting.of_disarmed hcontrol.2.2.1 ((congrArg _ hcontrol.1).trans hmode) hcontrol.2.1

theorem retryOpenBag_waiting (h : Waiting node)
    (hafter : (node.retryOpenBag localtime answers).recording = false) :
    Waiting (node.retryOpenBag localtime answers) := by
  by_cases hshould : node.ShouldRecord
  · by_cases hspace : HasSpace answers node
    · have hfault : answers.fault ≠ none := by
        intro hnone
        have hset : (node.retryOpenBag localtime answers).recording = true :=
          (retryOpenBag_recording h.idle hshould).mpr ⟨hspace, hnone⟩
        exact absurd (hafter.symm.trans hset) Bool.false_ne_true
      have hthrows : (node.openNewBag localtime answers).1 ≠ .returned :=
        mt openNewBag_returns_iff.mp hfault
      have hcontrol : (node.openNewBag localtime answers).2.control = node.control :=
        BagRecorderNode.openNewBag_control
      unfold BagRecorderNode.retryOpenBag
      rw [if_neg (by simp [h.idle]), if_neg (not_disarmed_iff.mpr hshould), if_neg hspace]
      generalize node.openNewBag localtime answers = result at hthrows hcontrol
      obtain ⟨exit, opened⟩ := result
      cases exit with
      | returned => exact absurd rfl hthrows
      | threw => exact h.of_control (BagRecorderNode.resetWriter_control.trans hcontrol)
    · rwa [retryOpenBag_deferred h.idle hshould hspace]
  · have hcancelled : node.retryOpenBag localtime answers = node.cancelRetry := by
      unfold BagRecorderNode.retryOpenBag
      rw [if_neg (by simp [h.idle]),
        if_pos (not_not.mp fun hnot => hshould (not_disarmed_iff.mp hnot))]
    rw [hcancelled]
    exact ⟨h.idle, fun hthen => absurd hthen hshould⟩

theorem boot_waiting (hafter : (BagRecorderNode.boot localtime answers node).recording = false) :
    Waiting (BagRecorderNode.boot localtime answers node) := by
  unfold BagRecorderNode.boot at hafter ⊢
  dsimp only at hafter ⊢
  split at hafter
  next hmode =>
    rw [if_pos hmode]
    apply Waiting.of_control ?_ (BagRecorderNode.ensureStorageDir_onlyStorage answers _).control_eq
    exact Waiting.of_disarmed rfl hmode rfl
  next hmode =>
    rw [if_neg hmode]
    apply Waiting.of_control ?_ (BagRecorderNode.ensureStorageDir_onlyStorage answers _).control_eq
    obtain ⟨storage, honly⟩ := BagRecorderNode.ensureStorageDir_onlyStorage answers
      (tryCatch (andThen
        (andThen ((node.restarted.prepareBoot answers).openNewBag localtime answers)
          BagRecorderNode.startRecording) (BagRecorderNode.startRotationTimer answers)) fun node =>
            { node.resetWriter with currentBagPath := "", recording := false }.scheduleRetry)
    rw [honly] at hafter
    exact tryRecording_waiting (fun _ => ⟨rfl, fun _ => rfl⟩) hafter

theorem step_waiting (h : Waiting node) {label : Label}
    (hafter : (step localtime node label).recording = false) :
    Waiting (step localtime node label) := by
  unfold step at hafter ⊢
  cases hrequest : label.request with
  | state armed =>
      simp only [hrequest] at hafter
      dsimp only
      split at hafter
      next hmode =>
        rw [if_pos hmode]
        exact armStateCb_waiting h hmode hafter
      next hmode =>
        rw [if_neg hmode]
        exact h
  | rotate =>
      dsimp only
      unfold BagRecorderNode.rotateBag
      rw [if_pos h.idle, ite_self]
      exact h
  | retry =>
      simp only [hrequest] at hafter
      dsimp only
      split at hafter
      next hretry =>
        rw [if_pos hretry]
        exact retryOpenBag_waiting h hafter
      next hretry =>
        rw [if_neg hretry]
        exact h
  | diskCheck =>
      dsimp only
      rwa [diskCheckCb_idle h.idle]
  | message topic =>
      dsimp only
      unfold BagRecorderNode.writeMessage
      split <;> exact ⟨h.idle, h.pending⟩
  | reboot =>
      simp only [hrequest] at hafter
      exact boot_waiting hafter
  | outside storage => exact ⟨h.idle, h.pending⟩

theorem Stopped.waiting {check : Answers} {later : List Label}
    (h : Stopped localtime node check later) :
    Waiting (run (step localtime) (step localtime node ⟨.diskCheck, check⟩) later) := by
  obtain ⟨hrecording, hstopped, hlater⟩ := h
  refine run_keeps (step localtime) Waiting (fun _ _ h hafter => step_waiting h hafter)
    ⟨hstopped, fun _ => ?_⟩ hlater
  have hlow : node.LowSpace (check.free 0) := by
    by_contra henough
    have hsame : step localtime node ⟨.diskCheck, check⟩ = node := diskCheckCb_enough henough
    rw [hsame, hrecording] at hstopped
    cases hstopped
  obtain ⟨found, k, _, hcleaned⟩ := cleaned_of_low hrecording hlow
  by_cases hless : node.LowSpace (check.free (finalQuery found k))
  · exact (hcleaned.stops hless).2.2.2.2
  · obtain ⟨storage, log, hcontinues⟩ := hcleaned.continues hless
    have hsame : step localtime node ⟨.diskCheck, check⟩ = { node with storage, log } := hcontinues
    rw [hsame] at hstopped
    exact absurd (hstopped.symm.trans hrecording) Bool.false_ne_true

end Waiting

/-- Between an emergency stop and the next recording, whatever happens meanwhile. -/
theorem run_awaitsSpace (localtime : Int → Option Tm) (cfg : Config) (storage : Option Storage)
    (answers : Answers) (labels : List Label) (check : Answers) (later : List Label)
    (hstopped : Stopped localtime
      (run (step localtime) (initial localtime cfg storage answers) labels) check later)
    (hshould : (run (step localtime) (initial localtime cfg storage answers)
      (labels ++ ⟨.diskCheck, check⟩ :: later)).ShouldRecord) :
    AwaitsSpace localtime (run (step localtime) (initial localtime cfg storage answers)
      (labels ++ ⟨.diskCheck, check⟩ :: later)) := by
  refine Waiting.awaitsSpace ?_ hshould
  rw [run_append]
  exact hstopped.waiting

/-- The check finds no slice but the active one. -/
def fullFlight : List Label := [⟨.state true, { time := 1000, createdAt := 1000 }⟩]

theorem awaitsSpace_fullFlight :
    AwaitsSpace epochDay (run (step epochDay) (initial epochDay {} none {})
      (fullFlight ++ ⟨.diskCheck, { freeMb := [100, 100] }⟩ ::
        [⟨.message "/odin1/imu", {}⟩, ⟨.retry, { freeMb := [100] }⟩])) :=
  run_awaitsSpace epochDay {} none {} fullFlight { freeMb := [100, 100] }
    [⟨.message "/odin1/imu", {}⟩, ⟨.retry, { freeMb := [100] }⟩] (by decide) (by decide)

/-- The queries of a check whose removals succeed, by the space that entries leave. -/
def measured (space : List Entry → Int) (node : BagRecorderNode) : List Int :=
  (List.range (node.entries.length + 2)).map fun i =>
    space (node.entries.filter fun entry => entry.name ∉ (node.inactiveSlices {}).take (i - 1))

/-- A check and a retry make space where closed slices take it, and record again. -/
def NoDeadEnd (localtime : Int → Option Tm) (space : List Entry → Int) (node : BagRecorderNode) :
    Prop :=
  node.cfg.minRecordingFreeSpaceMb ≤ space (node.entries.filter (·.kind ≠ .directory)) →
    ∀ time, (step localtime
      (step localtime node ⟨.diskCheck, { freeMb := measured space node }⟩)
      ⟨.retry, { time, createdAt := time, freeMb := [space (step localtime node
        ⟨.diskCheck, { freeMb := measured space node }⟩).entries] }⟩).recording = true

/-- Space for one flight, without its slice. -/
def oneFlight (entries : List Entry) : Int := if entries = [] then 9000 else 100

/-- The slice that has filled the disk is the active one for the check, which stops the recording.
From then on no check looks at it. -/
theorem not_noDeadEnd_fullFlight :
    ¬ ∀ (localtime : Int → Option Tm) (cfg : Config) (storage : Option Storage)
        (answers : Answers) (labels : List Label) (check : Answers) (later : List Label)
        (space : List Entry → Int),
      Stopped localtime (run (step localtime) (initial localtime cfg storage answers) labels)
          check later →
        (run (step localtime) (initial localtime cfg storage answers)
          (labels ++ ⟨.diskCheck, check⟩ :: later)).armed = true →
        NoDeadEnd localtime space (run (step localtime) (initial localtime cfg storage answers)
          (labels ++ ⟨.diskCheck, check⟩ :: later)) := by
  intro hall
  have hrecovers := hall epochDay {} none {} fullFlight { freeMb := [100, 100] } [] oneFlight
    (by decide) (by decide) (by decide) 1300
  exact absurd hrecovers (by decide)

end AcflyRos.BagLogd

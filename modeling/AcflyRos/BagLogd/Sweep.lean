import AcflyRos.BagLogd.Removal
import AcflyRos.BagLogd.SliceNames

/-! # What the scans delete

`cleanup_old_bags` and `disk_check_cb` each scan the storage directory and delete some of
its entries. No other callback takes anything out of it, and the only entry that is added
is the slice a callback opens. The active slice is recognised by its path, so a scan spares
it as long as `current_bag_path_` is the path of the open writer. That is the case between
callbacks and whenever a scan is made, whatever throws.
-/

namespace AcflyRos.BagLogd

open AcflyRos.Transition AcflyRos.Paths

/-! ## Deletions -/

/-- What a scan does to an entry of the storage directory. -/
inductive Deletion where
  | unlink (name : String)
  | removeDir (name : String)
  deriving DecidableEq, Repr

def Deletion.name : Deletion → String
  | .unlink name | .removeDir name => name

/-- What `cleanup_old_bags` does to an entry that it does not skip. -/
def Entry.deletion (entry : Entry) : Deletion :=
  if entry.kind = .directory then .removeDir entry.name else .unlink entry.name

/-- The calls behind a deletion, in a storage directory with these contents. -/
def Deletion.calls (fails : Call → Bool) (contents : String → List (String × Content))
    (node : BagRecorderNode) : Deletion → List Call
  | .unlink name => [.unlink (node.fullPath name)]
  | .removeDir name => (BagLogd.removeDir fails (node.fullPath name) (contents name)).1

namespace BagRecorderNode

variable (answers : Answers) (node : BagRecorderNode)

/-- The deletions of `cleanup_old_bags`. -/
def cleanupDeletions : List Deletion :=
  if node.cfg.cleanupMode ≠ "auto" then []
  else
    let node := node.ensureStorageDir answers
    if answers.opendirFails then []
    else (node.entries.filter fun entry =>
      node.isVisible answers entry && entry.kind != .file).map Entry.deletion

/-- The deletions of `disk_check_cb`. -/
def diskDeletions : List Deletion :=
  let free := answers.freeMb.headD (-1)
  if node.recording = false then []
  else if free < 0 then []
  else if node.cfg.minRecordingFreeSpaceMb ≤ free then []
  else
    let dirs := if answers.opendirFails then [] else node.inactiveSlices answers
    let links := if answers.opendirFails then [] else node.strayLinks answers
    links.map .unlink ++ (node.selectOldest dirs answers.freeMb.tail).1.map .removeDir

/-- `cleanup_old_bags` takes its deletions out of the storage directory, and does no more. -/
theorem cleanupOldBags_eq :
    node.cleanupOldBags answers =
      ((node.cleanupDeletions answers).map Deletion.name).foldl (removeDir answers)
        (if node.cfg.cleanupMode ≠ "auto" then node else node.ensureStorageDir answers) := by
  unfold cleanupOldBags cleanupDeletions
  by_cases hmode : node.cfg.cleanupMode ≠ "auto"
  · simp only [if_pos hmode]
    rfl
  · simp only [if_neg hmode]
    by_cases hfails : answers.opendirFails = true
    · simp only [if_pos hfails]
      rfl
    · simp only [if_neg hfails, List.map_map]
      congr 2
      funext entry
      simp only [Function.comp_apply, Entry.deletion]
      split <;> rfl

theorem closeWriter_storage (node : BagRecorderNode) :
    node.closeWriter.storage = node.storage := by
  unfold closeWriter resetWriter
  cases node.writer <;> rfl

theorem removeDirs_record (names : List String) (event : Event) (node : BagRecorderNode) :
    (names.foldl (removeDir answers) (node.record event)).storage =
      (names.foldl (removeDir answers) node).storage := by
  induction names generalizing node with
  | nil => rfl
  | cons name rest ih =>
      have hhead : (node.record event).removeDir answers name =
          (node.removeDir answers name).record event := by
        unfold removeDir
        split <;> rfl
      rw [List.foldl_cons, List.foldl_cons, hhead, ih]

/-- So does `disk_check_cb`, whether or not it stops the recording. -/
theorem diskCheckCb_storage :
    (node.diskCheckCb answers).storage =
      (((node.diskDeletions answers).map Deletion.name).foldl
        (removeDir answers) node).storage := by
  unfold diskCheckCb diskDeletions
  dsimp only
  split
  next => rfl
  next =>
    split
    next => rfl
    next =>
      split
      next => rfl
      next =>
        generalize (if answers.opendirFails then [] else node.inactiveSlices answers) = dirs
        generalize (if answers.opendirFails then [] else node.strayLinks answers) = links
        generalize node.selectOldest dirs answers.freeMb.tail = selected
        obtain ⟨removed, later⟩ := selected
        have hnames : (links.map Deletion.unlink ++ removed.map Deletion.removeDir).map
            Deletion.name = links ++ removed := by
          simp [Function.comp_def, Deletion.name]
        dsimp only
        rw [hnames, ← removeDirs_record answers _ (.cleaned dirs removed) node]
        split
        · exact closeWriter_storage _
        · rfl

/-! ## Only visible entries other than the active slice -/

/-- The deletion is of an entry that the scan does not skip, and fits its kind. -/
def Targets (deletion : Deletion) : Prop :=
  ∃ entry ∈ node.entries, entry.name.toList.head? ≠ some '.' ∧
    node.fullPath entry.name ≠ node.currentBagPath ∧
    (deletion = .removeDir entry.name ∧ entry.kind = .directory ∨
      deletion = .unlink entry.name ∧ entry.kind ≠ .directory ∧ entry.kind ≠ .file)

variable {answers node} {deletion : Deletion}

theorem isVisible_iff {entry : Entry} :
    node.isVisible answers entry = true ↔ entry.name.toList.head? ≠ some '.' ∧
      node.fullPath entry.name ≠ node.currentBagPath ∧ entry.name ∉ answers.unreadable := by
  simp only [isVisible, Bool.and_eq_true, bne_iff_ne, Bool.not_eq_true', and_assoc,
    List.contains_eq_mem, decide_eq_false_iff_not]

theorem ensureStorageDir_entries (answers : Answers) (node : BagRecorderNode) :
    (node.ensureStorageDir answers).entries = node.entries := by
  unfold ensureStorageDir
  split
  next => rfl
  next hnone =>
    split
    next => simp [entries, hnone]
    next => rfl

theorem cleanupDeletions_targets (hdeletion : deletion ∈ node.cleanupDeletions answers) :
    node.Targets deletion := by
  obtain ⟨storage, hensured⟩ := node.ensureStorageDir_onlyStorage answers
  have hentries := ensureStorageDir_entries answers node
  unfold cleanupDeletions at hdeletion
  split at hdeletion
  next => cases hdeletion
  next =>
    dsimp only at hdeletion
    split at hdeletion
    next => cases hdeletion
    next =>
      obtain ⟨entry, hentry, rfl⟩ := List.mem_map.mp hdeletion
      rw [hentries, List.mem_filter, Bool.and_eq_true, hensured, isVisible_iff,
        bne_iff_ne] at hentry
      obtain ⟨hmem, ⟨hvisible, hinactive, _⟩, hfile⟩ := hentry
      refine ⟨entry, hmem, hvisible, hinactive, ?_⟩
      unfold Entry.deletion
      by_cases hkind : entry.kind = .directory
      · exact Or.inl ⟨if_pos hkind, hkind⟩
      · exact Or.inr ⟨if_neg hkind, hkind, hfile⟩

theorem mem_inactiveSlices {name : String} (hname : name ∈ node.inactiveSlices answers) :
    node.Targets (.removeDir name) := by
  unfold inactiveSlices at hname
  rw [List.mem_insertionSort, List.mem_map] at hname
  obtain ⟨entry, hentry, rfl⟩ := hname
  rw [List.mem_filter, Bool.and_eq_true, isVisible_iff, beq_iff_eq] at hentry
  obtain ⟨hmem, ⟨hvisible, hinactive, _⟩, hkind⟩ := hentry
  exact ⟨entry, hmem, hvisible, hinactive, Or.inl ⟨rfl, hkind⟩⟩

theorem mem_strayLinks {name : String} (hname : name ∈ node.strayLinks answers) :
    node.Targets (.unlink name) := by
  obtain ⟨entry, hentry, rfl⟩ := List.mem_map.mp hname
  simp only [List.mem_filter, Bool.and_eq_true, isVisible_iff, bne_iff_ne] at hentry
  obtain ⟨hmem, ⟨⟨⟨hvisible, hinactive, _⟩, _⟩, hdirectory⟩, hfile⟩ := hentry
  exact ⟨entry, hmem, hvisible, hinactive, Or.inr ⟨rfl, hdirectory, hfile⟩⟩

theorem diskDeletions_targets (hdeletion : deletion ∈ node.diskDeletions answers) :
    node.Targets deletion := by
  unfold diskDeletions at hdeletion
  dsimp only at hdeletion
  split at hdeletion
  next => cases hdeletion
  next =>
    split at hdeletion
    next => cases hdeletion
    next =>
      split at hdeletion
      next => cases hdeletion
      next =>
        by_cases hfails : answers.opendirFails = true
        · -- Then nothing is listed.
          simp only [if_pos hfails] at hdeletion
          cases hdeletion
        · simp only [if_neg hfails, List.mem_append, List.mem_map] at hdeletion
          rcases hdeletion with ⟨name, hname, rfl⟩ | ⟨name, hname, rfl⟩
          · exact mem_strayLinks hname
          · have holdest : (node.selectOldest (node.inactiveSlices answers)
                answers.freeMb.tail).1 <+: node.inactiveSlices answers :=
              selectOldest_prefix (fun _ => inactiveSlices_inactive) _
            exact mem_inactiveSlices (holdest.subset hname)

end BagRecorderNode

/-! ## The scan of a callback -/

/-- The state in which a callback makes its scan, if it makes one. -/
def scanState (node : BagRecorderNode) (label : Label) : BagRecorderNode :=
  match label.request with
  | .state true =>
      if node.cfg.armRecordEnabled ∧ node.armed = false then
        ({ node with armed := true }.ensureStorageDir label.answers).closeWriter
      else node
  | .reboot =>
      if node.cfg.armRecordEnabled then node else node.restarted.ensureStorageDir label.answers
  | _ => node

/-- What the callback deletes. -/
def deletions (node : BagRecorderNode) (label : Label) : List Deletion :=
  match label.request with
  | .state true =>
      if node.cfg.armRecordEnabled ∧ node.armed = false then
        (scanState node label).cleanupDeletions label.answers
      else []
  | .reboot =>
      if node.cfg.armRecordEnabled then []
      else (scanState node label).cleanupDeletions label.answers
  | .diskCheck => node.diskDeletions label.answers
  | _ => []

theorem deletions_targets {node : BagRecorderNode} {label : Label} {deletion : Deletion}
    (hdeletion : deletion ∈ deletions node label) :
    (scanState node label).Targets deletion := by
  unfold deletions at hdeletion
  cases hrequest : label.request with
  | state armed =>
      simp only [hrequest] at hdeletion
      cases armed with
      | true =>
          dsimp only at hdeletion
          split at hdeletion
          · exact BagRecorderNode.cleanupDeletions_targets hdeletion
          · cases hdeletion
      | false => cases hdeletion
  | reboot =>
      simp only [hrequest] at hdeletion
      split at hdeletion
      · cases hdeletion
      · exact BagRecorderNode.cleanupDeletions_targets hdeletion
  | diskCheck =>
      simp only [hrequest] at hdeletion
      unfold scanState
      rw [hrequest]
      exact BagRecorderNode.diskDeletions_targets hdeletion
  | rotate | retry | message | outside =>
      simp only [hrequest] at hdeletion
      cases hdeletion

/-- It is one scan or the other. -/
theorem deletions_scanned {node : BagRecorderNode} {label : Label} {deletion : Deletion}
    (hdeletion : deletion ∈ deletions node label) :
    deletion ∈ (scanState node label).cleanupDeletions label.answers ∨
      deletion ∈ (scanState node label).diskDeletions label.answers := by
  unfold deletions at hdeletion
  split at hdeletion
  next =>
    split at hdeletion
    · exact Or.inl hdeletion
    · cases hdeletion
  next =>
    split at hdeletion
    · cases hdeletion
    · exact Or.inl hdeletion
  next hrequest =>
    refine Or.inr ?_
    unfold scanState
    rw [hrequest]
    exact hdeletion
  next => cases hdeletion

/-- Every call behind a deletion is on an entry that the scan has found. -/
theorem BagRecorderNode.Targets.calls {node : BagRecorderNode} {deletion : Deletion}
    {fails : Call → Bool} {contents : String → List (String × Content)} {call : Call}
    (htargets : node.Targets deletion) (hcall : call ∈ deletion.calls fails contents node) :
    ∃ entry ∈ node.entries, entry.name.toList.head? ≠ some '.' ∧
      node.fullPath entry.name ≠ node.currentBagPath ∧
      (entry.kind = .directory ∧
          call.Finds (node.fullPath entry.name) (.directory (contents entry.name)) ∨
        entry.kind ≠ .directory ∧ entry.kind ≠ .file ∧
          call = .unlink (node.fullPath entry.name)) := by
  obtain ⟨entry, hentry, hvisible, hinactive, ⟨rfl, hkind⟩ | ⟨rfl, hdirectory, hfile⟩⟩ := htargets
  · exact ⟨entry, hentry, hvisible, hinactive, Or.inl ⟨hkind, removeDir_finds hcall⟩⟩
  · exact ⟨entry, hentry, hvisible, hinactive,
      Or.inr ⟨hdirectory, hfile, List.mem_singleton.mp hcall⟩⟩

/-! ## The storage directory after a callback -/

/-- The entries that are not deleted, or cannot be. -/
def remaining (answers : Answers) (deleted : List Deletion) (entries : List Entry) : List Entry :=
  entries.filter fun entry =>
    decide (entry.name ∈ deleted.map Deletion.name → entry.name ∈ answers.unremovable)

@[simp] theorem remaining_nil (answers : Answers) (entries : List Entry) :
    remaining answers [] entries = entries := by
  simp [remaining]

/-- These entries, and perhaps the slice that was named last. -/
def Leaves (entries : List Entry) (after : BagRecorderNode) : Prop :=
  after.entries = entries ∨ ∃ name, (chosenNames after.log).head? = some name ∧
    after.entries = entries ++ [⟨name, .directory⟩]

/-- Unless somebody else changes the storage directory, it holds what the callback has not deleted
and at most the slice it has opened. -/
structure Sweeps (localtime : Int → Option Tm) (node : BagRecorderNode) (label : Label) : Prop where
  scanned : ∀ deletion ∈ deletions node label,
    deletion ∈ (scanState node label).cleanupDeletions label.answers ∨
      deletion ∈ (scanState node label).diskDeletions label.answers
  holds : (∀ storage, label.request ≠ .outside storage) →
    Leaves (remaining label.answers (deletions node label) node.entries)
      (step localtime node label)

/-- The entries of the storage directory, and the names of the log. -/
def BagRecorderNode.contents (node : BagRecorderNode) : List Entry × List String :=
  (node.entries, chosenNames node.log)

theorem Leaves.of_contents {entries : List Entry} {node after : BagRecorderNode}
    (hleaves : Leaves entries node) (hsame : after.contents = node.contents) :
    Leaves entries after := by
  obtain ⟨hentries, hnames⟩ := Prod.mk.inj hsame
  unfold Leaves
  rw [hentries, hnames]
  exact hleaves

theorem Leaves.mem {entries : List Entry} {after : BagRecorderNode}
    (hleaves : Leaves entries after) {entry : Entry} (hentry : entry ∈ entries) :
    entry ∈ after.entries := by
  rcases hleaves with hsame | ⟨_, _, hadded⟩
  · rwa [hsame]
  · rw [hadded]
    exact List.mem_append_left _ hentry

theorem leaves_of_same {node after : BagRecorderNode} (hsame : after.contents = node.contents) :
    Leaves node.entries after :=
  Leaves.of_contents (Or.inl rfl) hsame

namespace BagRecorderNode

section Pieces

variable (localtime : Int → Option Tm) (answers : Answers) (node : BagRecorderNode)

theorem entries_removeDirs (names : List String) :
    (names.foldl (removeDir answers) node).entries =
      node.entries.filter fun entry =>
        decide (entry.name ∈ names → entry.name ∈ answers.unremovable) := by
  induction names generalizing node with
  | nil => simp
  | cons name rest ih =>
      have hhead : (node.removeDir answers name).entries =
          node.entries.filter fun entry =>
            decide (entry.name = name → entry.name ∈ answers.unremovable) := by
        unfold removeDir
        split
        next hstays =>
          rw [List.filter_eq_self.mpr]
          intro entry _
          exact decide_eq_true fun hname => hname ▸ hstays
        next hremoved =>
          unfold BagRecorderNode.entries
          cases node.storage with
          | none => rfl
          | some storage =>
              refine List.filter_congr fun entry _ => decide_eq_decide.mpr ?_
              constructor
              · exact fun hne heq => absurd heq hne
              · rintro hstays rfl
                exact hremoved (hstays rfl)
      rw [List.foldl_cons, ih, hhead, List.filter_filter]
      refine List.filter_congr fun entry _ => ?_
      rw [← Bool.decide_and, decide_eq_decide, List.mem_cons, or_imp, and_comm]

theorem resetWriter_contents : node.resetWriter.contents = node.contents := by
  unfold resetWriter
  split <;> rfl

theorem closeWriter_contents : node.closeWriter.contents = node.contents := by
  unfold closeWriter
  split
  · rfl
  · exact resetWriter_contents node

theorem ensureStorageDir_contents :
    (node.ensureStorageDir answers).contents = node.contents := by
  obtain ⟨storage, hensured⟩ := node.ensureStorageDir_onlyStorage answers
  refine Prod.ext (ensureStorageDir_entries answers node) ?_
  rw [hensured]
  rfl

theorem startRotationTimer_contents :
    (node.startRotationTimer answers).2.contents = node.contents := by
  rcases node.startRotationTimer_cases answers with ⟨_, hstart⟩ | ⟨hstart, _⟩
  · rw [hstart]
    rfl
  · rw [hstart]

/-- rosbag2 creates the directory that was named, or fails before. -/
theorem openNewBag_leaves : Leaves node.entries (node.openNewBag localtime answers).2 := by
  have hwriter : (node.chooseName localtime answers).createWriter.contents =
      (node.entries, node.bagName localtime answers :: chosenNames node.log) :=
    resetWriter_contents _
  obtain ⟨hentries, hnames⟩ := Prod.mk.inj hwriter
  have hcreated : Leaves node.entries ((node.chooseName localtime answers).createWriter.createSlice
      answers (node.bagName localtime answers)) := by
    refine Or.inr ⟨node.bagName localtime answers, ?_, ?_⟩
    · show (chosenNames (node.chooseName localtime answers).createWriter.log).head? = _
      rw [hnames]
      rfl
    · rw [← hentries]
      unfold BagRecorderNode.entries createSlice
      cases (node.chooseName localtime answers).createWriter.storage <;> rfl
  unfold openNewBag
  dsimp only
  split
  next => exact Or.inl rfl
  next => exact Or.inl rfl
  next => exact Or.inl rfl
  next => exact Or.inl hentries
  next => exact hcreated
  next => exact hcreated.of_contents rfl
  next => exact hcreated.of_contents rfl

theorem recording_leaves :
    Leaves node.entries (andThen (node.openNewBag localtime answers) startRecording).2 :=
  (openNewBag_leaves localtime answers node).of_contents (andThen_keeps contents fun _ => rfl)

theorem rotating_leaves :
    Leaves node.entries (andThen (andThen (node.openNewBag localtime answers) startRecording)
      (startRotationTimer answers)).2 :=
  (recording_leaves localtime answers node).of_contents
    (andThen_keeps contents (startRotationTimer_contents answers))

theorem cleanupOldBags_contents :
    (node.cleanupOldBags answers).contents =
      (remaining answers (node.cleanupDeletions answers) node.entries, chosenNames node.log) := by
  obtain ⟨storage, honly⟩ := node.cleanupOldBags_onlyStorage answers
  refine Prod.ext ?_ ?_
  · show (node.cleanupOldBags answers).entries = _
    rw [cleanupOldBags_eq, entries_removeDirs]
    split
    · rfl
    · rw [ensureStorageDir_entries]
      rfl
  · rw [honly]
    rfl

theorem rotateBag_leaves : Leaves node.entries (node.rotateBag localtime answers) := by
  unfold rotateBag
  split
  next => exact leaves_of_same rfl
  next =>
    split
    next => exact leaves_of_same rfl
    next =>
      have hclosed := closeWriter_contents node
      dsimp only
      split
      next => exact leaves_of_same hclosed
      next =>
        have hopened := recording_leaves localtime answers node.closeWriter
        rw [(Prod.mk.inj hclosed).1] at hopened
        exact hopened.of_contents (tryCatch_keeps contents fun failed =>
          resetWriter_contents failed)

theorem retryOpenBag_leaves : Leaves node.entries (node.retryOpenBag localtime answers) := by
  unfold retryOpenBag
  split
  next => exact leaves_of_same rfl
  next =>
    split
    next => exact leaves_of_same rfl
    next =>
      split
      next => exact leaves_of_same rfl
      next =>
        refine (rotating_leaves localtime answers node).of_contents ?_
        rw [tryCatch_keeps contents, andThen_keeps contents fun _ => rfl]
        exact fun failed => resetWriter_contents failed

/-- The flag is set first. -/
theorem armStateCb_leaves (hdisarmed : node.armed = false) :
    Leaves (remaining answers
        (({ node with armed := true }.ensureStorageDir
          answers).closeWriter.cleanupDeletions answers)
        node.entries) (node.armStateCb localtime answers true) := by
  have hscan : (({ node with armed := true } : BagRecorderNode).ensureStorageDir
      answers).closeWriter.contents = node.contents :=
    (closeWriter_contents _).trans (ensureStorageDir_contents answers _)
  have hprepared := cleanupOldBags_contents answers
    (({ node with armed := true } : BagRecorderNode).ensureStorageDir answers).closeWriter
  rw [(Prod.mk.inj hscan).1] at hprepared
  unfold armStateCb
  rw [if_pos rfl, if_neg (by simp [hdisarmed])]
  dsimp only
  split
  next => exact Or.inl (Prod.mk.inj hprepared).1
  next =>
    have hopened := rotating_leaves localtime answers (node.prepareArm answers)
    rw [show (node.prepareArm answers).entries = _ from (Prod.mk.inj hprepared).1] at hopened
    exact hopened.of_contents (tryCatch_keeps contents fun failed => resetWriter_contents failed)

theorem disarm_leaves : Leaves node.entries (node.armStateCb localtime answers false) := by
  unfold armStateCb
  rw [if_neg Bool.false_ne_true]
  split
  next => exact leaves_of_same rfl
  next =>
    dsimp only
    refine leaves_of_same ((closeWriter_contents _).trans ?_)
    split <;> rfl

theorem diskCheckCb_leaves :
    Leaves (remaining answers (node.diskDeletions answers) node.entries)
      (node.diskCheckCb answers) := by
  refine Or.inl ?_
  unfold remaining
  rw [← entries_removeDirs]
  exact congrArg (fun storage => storage.elim [] Storage.entries) (diskCheckCb_storage answers node)

theorem boot_leaves :
    Leaves (remaining answers (if node.cfg.armRecordEnabled then []
        else (node.restarted.ensureStorageDir answers).cleanupDeletions answers) node.entries)
      (boot localtime answers node) := by
  have hscan : (node.restarted.ensureStorageDir answers).contents = node.contents :=
    ensureStorageDir_contents answers node.restarted
  have hprepared := cleanupOldBags_contents answers (node.restarted.ensureStorageDir answers)
  rw [(Prod.mk.inj hscan).1] at hprepared
  unfold boot
  dsimp only
  refine Leaves.of_contents ?_ (ensureStorageDir_contents answers _)
  by_cases hmode : node.cfg.armRecordEnabled = true
  · rw [if_pos hmode, if_pos (show node.restarted.cfg.armRecordEnabled = true from hmode)]
    exact Or.inl (remaining_nil answers node.entries).symm
  · rw [if_neg hmode, if_neg (show ¬ node.restarted.cfg.armRecordEnabled = true from hmode)]
    have hopened := rotating_leaves localtime answers (node.restarted.prepareBoot answers)
    rw [show (node.restarted.prepareBoot answers).entries = _ from (Prod.mk.inj hprepared).1]
      at hopened
    exact hopened.of_contents (tryCatch_keeps contents fun failed => resetWriter_contents failed)

end Pieces

end BagRecorderNode

theorem step_sweeps (localtime : Int → Option Tm) (node : BagRecorderNode) (label : Label) :
    Sweeps localtime node label where
  scanned _ := deletions_scanned
  holds := by
    intro hown
    unfold step deletions scanState
    cases hrequest : label.request with
    | state armed =>
        dsimp only
        cases armed with
        | true =>
            dsimp only
            by_cases hmode : node.cfg.armRecordEnabled = true
            · by_cases hdisarmed : node.armed = false
              · rw [if_pos hmode, if_pos ⟨hmode, hdisarmed⟩, if_pos ⟨hmode, hdisarmed⟩]
                exact node.armStateCb_leaves localtime label.answers hdisarmed
              · rw [if_pos hmode, if_neg fun h => hdisarmed h.2, remaining_nil]
                refine leaves_of_same (congrArg _ ?_)
                unfold BagRecorderNode.armStateCb
                rw [if_pos rfl, if_pos (by simpa using hdisarmed)]
            · rw [if_neg hmode, if_neg fun h => hmode h.1, remaining_nil]
              exact leaves_of_same rfl
        | false =>
            rw [remaining_nil]
            split
            · exact node.disarm_leaves localtime label.answers
            · exact leaves_of_same rfl
    | rotate =>
        rw [remaining_nil]
        dsimp only
        split
        · exact node.rotateBag_leaves localtime label.answers
        · exact leaves_of_same rfl
    | retry =>
        rw [remaining_nil]
        dsimp only
        split
        · exact node.retryOpenBag_leaves localtime label.answers
        · exact leaves_of_same rfl
    | diskCheck => exact node.diskCheckCb_leaves label.answers
    | message topic =>
        rw [remaining_nil]
        refine leaves_of_same ?_
        dsimp only
        unfold BagRecorderNode.writeMessage
        split <;> rfl
    | reboot =>
        dsimp only
        have hboot := BagRecorderNode.boot_leaves localtime label.answers node
        by_cases hmode : node.cfg.armRecordEnabled = true
        · rw [if_pos hmode] at hboot ⊢
          exact hboot
        · rw [if_neg hmode] at hboot
          rw [if_neg hmode, if_neg hmode]
          exact hboot
    | outside storage => exact absurd hrequest (hown storage)

end AcflyRos.BagLogd

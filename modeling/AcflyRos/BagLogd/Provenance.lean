import AcflyRos.BagLogd.Sweep

/-! # Whose directories are deleted

The storage directory is the recorder's own: the scans look at the kind of an entry and
not at its name. As long as nobody else puts directories there, every directory they
delete was created by `open_new_bag`, and whatever is there, they delete nothing that
can only be reached through a link.
-/

namespace AcflyRos.BagLogd

open AcflyRos.Transition AcflyRos.Paths

/-! ## Where entries come from -/

/-- Every entry was there before or is a slice named by `open_new_bag` since, and names are kept
in the log. -/
structure Inherits (before after : BagRecorderNode) : Prop where
  entries : ∀ entry ∈ after.entries,
    entry ∈ before.entries ∨ entry.name ∈ chosenNames after.log
  names : chosenNames before.log ⊆ chosenNames after.log
  slices : ∀ name ∈ chosenNames after.log, name ∈ chosenNames before.log ∨ IsSlice name

namespace Inherits

variable {localtime : Int → Option Tm} {answers : Answers} {node before after : BagRecorderNode}

theorem of_subset (hentries : ∀ entry ∈ after.entries, entry ∈ before.entries)
    (hlog : chosenNames after.log = chosenNames before.log) : Inherits before after where
  entries entry hentry := Or.inl (hentries entry hentry)
  names := by rw [hlog]; exact List.Subset.refl _
  slices := by
    rw [hlog]
    exact fun name hname => Or.inl hname

theorem of_same (hstorage : after.storage = before.storage)
    (hlog : chosenNames after.log = chosenNames before.log) : Inherits before after := by
  refine of_subset ?_ hlog
  unfold BagRecorderNode.entries
  rw [hstorage]
  exact fun _ hentry => hentry

theorem refl (node : BagRecorderNode) : Inherits node node := of_same rfl rfl

theorem trans {first second third : BagRecorderNode} (hfirst : Inherits first second)
    (hsecond : Inherits second third) : Inherits first third where
  entries := by
    intro entry hentry
    rcases hsecond.entries entry hentry with hearlier | hnamed
    · exact (hfirst.entries entry hearlier).imp_right fun hnamed => hsecond.names hnamed
    · exact Or.inr hnamed
  names := List.Subset.trans hfirst.names hsecond.names
  slices := by
    intro name hname
    rcases hsecond.slices name hname with hearlier | hslice
    · exact hfirst.slices name hearlier
    · exact Or.inr hslice

theorem ensureStorageDir (answers : Answers) (node : BagRecorderNode) :
    Inherits node (node.ensureStorageDir answers) := by
  obtain ⟨storage, hensured⟩ := node.ensureStorageDir_onlyStorage answers
  apply of_subset
  · rw [BagRecorderNode.ensureStorageDir_entries]
    exact fun _ hentry => hentry
  · rw [hensured]

theorem removeDirs (answers : Answers) (names : List String) (node : BagRecorderNode) :
    Inherits node (names.foldl (BagRecorderNode.removeDir answers) node) := by
  induction names generalizing node with
  | nil => exact refl node
  | cons name rest ih =>
      refine trans ?_ (ih _)
      unfold BagRecorderNode.removeDir
      split
      · exact refl node
      · apply of_subset
        · intro entry hentry
          unfold BagRecorderNode.entries at hentry ⊢
          cases hstorage : node.storage with
          | none => simp [hstorage] at hentry
          | some storage =>
              simp only [hstorage, Option.map_some, Option.elim_some, Storage.remove] at hentry
              exact (List.mem_filter.mp hentry).1
        · rfl

theorem cleanupOldBags (answers : Answers) (node : BagRecorderNode) :
    Inherits node (node.cleanupOldBags answers) := by
  rw [BagRecorderNode.cleanupOldBags_eq]
  refine trans ?_ (removeDirs answers _ _)
  split
  · exact refl node
  · exact ensureStorageDir answers node

theorem resetWriter (node : BagRecorderNode) : Inherits node node.resetWriter := by
  unfold BagRecorderNode.resetWriter
  split
  · exact refl node
  · exact of_same rfl rfl

theorem closeWriter (node : BagRecorderNode) : Inherits node node.closeWriter := by
  unfold BagRecorderNode.closeWriter
  split
  · exact refl node
  · exact (resetWriter node).trans (of_same rfl rfl)

/-- The name is in the log before the directory is created. -/
theorem openNewBag (localtime : Int → Option Tm) (answers : Answers) (node : BagRecorderNode) :
    Inherits node (node.openNewBag localtime answers).2 := by
  have hnamed : chosenNames (node.chooseName localtime answers).log =
      node.bagName localtime answers :: chosenNames node.log := rfl
  have hchosen : Inherits node (node.chooseName localtime answers) := by
    refine ⟨fun entry hentry => Or.inl hentry, ?_, ?_⟩
    · rw [hnamed]
      exact List.subset_cons_self _ _
    · rw [hnamed]
      intro name hname
      rcases List.mem_cons.mp hname with rfl | hearlier
      · exact Or.inr ⟨localtime, _, _, rfl⟩
      · exact Or.inl hearlier
  have hwriter : Inherits node (node.chooseName localtime answers).createWriter :=
    (hchosen.trans (resetWriter _)).trans (of_same rfl rfl)
  have hlogged : node.bagName localtime answers ∈
      chosenNames (node.chooseName localtime answers).createWriter.log :=
    (resetWriter (node.chooseName localtime answers)).names
      (by rw [hnamed]; exact List.mem_cons_self)
  -- The only entry that the writer adds.
  have hcreated : Inherits node ((node.chooseName localtime answers).createWriter.createSlice
      answers (node.bagName localtime answers)) := by
    refine hwriter.trans ⟨?_, List.Subset.refl _, fun name hname => Or.inl hname⟩
    intro entry hentry
    simp only [BagRecorderNode.entries, BagRecorderNode.createSlice, Option.elim_some,
      Storage.create, List.mem_append, List.mem_singleton] at hentry ⊢
    rcases hentry with hold | rfl
    · cases hstorage : (node.chooseName localtime answers).createWriter.storage with
      | none => simp [hstorage] at hold
      | some storage =>
          rw [hstorage] at hold
          exact Or.inl hold
    · exact Or.inr hlogged
  unfold BagRecorderNode.openNewBag
  dsimp only
  split
  next => exact of_same rfl rfl
  next => exact of_same rfl rfl
  next => exact hchosen
  next => exact hwriter
  next => exact hcreated
  next => exact hcreated.trans (of_same rfl rfl)
  next => exact hcreated.trans (of_same rfl rfl)

theorem andThen {result : Exit × BagRecorderNode}
    {next : BagRecorderNode → Exit × BagRecorderNode} (hresult : Inherits node result.2)
    (hnext : ∀ node, Inherits node (next node).2) :
    Inherits node (BagLogd.andThen result next).2 := by
  obtain ⟨exit, middle⟩ := result
  cases exit with
  | returned => exact hresult.trans (hnext middle)
  | threw => exact hresult

theorem tryCatch {result : Exit × BagRecorderNode} {handler : BagRecorderNode → BagRecorderNode}
    (hresult : Inherits node result.2) (hhandler : ∀ failed, Inherits failed (handler failed)) :
    Inherits node (BagLogd.tryCatch result handler) := by
  obtain ⟨exit, middle⟩ := result
  cases exit with
  | returned => exact hresult
  | threw => exact hresult.trans (hhandler middle)

theorem startRotationTimer (answers : Answers) (node : BagRecorderNode) :
    Inherits node (node.startRotationTimer answers).2 := by
  rcases node.startRotationTimer_cases answers with ⟨_, hstart⟩ | ⟨hstart, _⟩
  · rw [hstart]
    exact of_same rfl rfl
  · rw [hstart]
    exact refl node

/-- Opening a bag and recording to it. -/
theorem recording (localtime : Int → Option Tm) (answers : Answers) (node : BagRecorderNode) :
    Inherits node (BagLogd.andThen (node.openNewBag localtime answers)
      BagRecorderNode.startRecording).2 :=
  (openNewBag localtime answers node).andThen fun _ => of_same rfl rfl

theorem rotating (localtime : Int → Option Tm) (answers : Answers) (node : BagRecorderNode) :
    Inherits node (BagLogd.andThen (BagLogd.andThen (node.openNewBag localtime answers)
      BagRecorderNode.startRecording) (BagRecorderNode.startRotationTimer answers)).2 :=
  (recording localtime answers node).andThen (startRotationTimer answers)

end Inherits

/-! ## Callbacks -/

section Callbacks

variable (localtime : Int → Option Tm) (answers : Answers) (node : BagRecorderNode)

theorem rotateBag_inherits : Inherits node (node.rotateBag localtime answers) := by
  unfold BagRecorderNode.rotateBag
  split
  next => exact Inherits.refl node
  next =>
    split
    next => exact Inherits.refl node
    next =>
      have hclosed := Inherits.closeWriter node
      dsimp only
      split
      next => exact hclosed
      next =>
        refine hclosed.trans ((Inherits.recording localtime answers _).tryCatch fun failed => ?_)
        exact (Inherits.resetWriter failed).trans (Inherits.of_same rfl rfl)

theorem retryOpenBag_inherits : Inherits node (node.retryOpenBag localtime answers) := by
  unfold BagRecorderNode.retryOpenBag
  split
  next => exact Inherits.of_same rfl rfl
  next =>
    split
    next => exact Inherits.of_same rfl rfl
    next =>
      split
      next => exact Inherits.refl node
      next =>
        refine Inherits.tryCatch ((Inherits.rotating localtime answers node).andThen
          fun _ => Inherits.of_same rfl rfl) fun failed => ?_
        exact (Inherits.resetWriter failed).trans (Inherits.of_same rfl rfl)

theorem armStateCb_inherits (armed : Bool) :
    Inherits node (node.armStateCb localtime answers armed) := by
  unfold BagRecorderNode.armStateCb
  split
  next =>
    split
    next => exact Inherits.refl node
    next =>
      have harmed : Inherits node { node with armed := true } := Inherits.of_same rfl rfl
      have hprepared : Inherits node (node.prepareArm answers) :=
        ((harmed.trans (Inherits.ensureStorageDir answers _)).trans
          (Inherits.closeWriter _)).trans (Inherits.cleanupOldBags answers _)
      dsimp only
      split
      next => exact hprepared
      next =>
        refine hprepared.trans ((Inherits.rotating localtime answers _).tryCatch fun failed => ?_)
        exact (Inherits.resetWriter failed).trans (Inherits.of_same rfl rfl)
  next =>
    split
    next => exact Inherits.refl node
    next =>
      dsimp only
      refine Inherits.trans ?_ (Inherits.closeWriter _)
      split <;> exact Inherits.of_same rfl rfl

theorem diskCheckCb_inherits : Inherits node (node.diskCheckCb answers) := by
  rcases node.diskCheckCb_cases answers with
    hidle | ⟨dirs, links, removed, left, _, _, _, hleft, hchecked⟩
  · rw [hidle]
    exact Inherits.refl node
  · have hrecorded : Inherits node (node.record (.cleaned dirs removed)) :=
      Inherits.of_same rfl rfl
    have hremoved := hrecorded.trans (Inherits.removeDirs answers (links ++ removed) _)
    rw [← hleft] at hremoved
    rcases hchecked with hkept | hstopped
    · rwa [hkept]
    · have hquiet : Inherits left
          (BagRecorderNode.stopRotationTimer { left with recording := false }) :=
        Inherits.of_same rfl rfl
      rw [hstopped]
      exact ((hremoved.trans hquiet).trans (Inherits.closeWriter _)).trans
        (Inherits.of_same rfl rfl)

theorem boot_inherits : Inherits node (BagRecorderNode.boot localtime answers node) := by
  unfold BagRecorderNode.boot
  refine Inherits.trans ?_ (Inherits.ensureStorageDir answers _)
  have hrestarted : Inherits node node.restarted := Inherits.of_same rfl rfl
  dsimp only
  split
  next => exact hrestarted
  next =>
    have hprepared : Inherits node (node.restarted.prepareBoot answers) :=
      (hrestarted.trans (Inherits.ensureStorageDir answers _)).trans
        (Inherits.cleanupOldBags answers _)
    refine hprepared.trans ((Inherits.rotating localtime answers _).tryCatch fun failed => ?_)
    exact (Inherits.resetWriter failed).trans (Inherits.of_same rfl rfl)

end Callbacks

/-- Only somebody else brings entries in. -/
theorem step_inherits (localtime : Int → Option Tm) (node : BagRecorderNode) (label : Label)
    (hown : ∀ storage, label.request ≠ .outside storage) :
    Inherits node (step localtime node label) := by
  unfold step
  cases hrequest : label.request with
  | state armed =>
      dsimp only
      split
      · exact armStateCb_inherits localtime label.answers node armed
      · exact Inherits.refl node
  | rotate =>
      dsimp only
      split
      · exact rotateBag_inherits localtime label.answers node
      · exact Inherits.refl node
  | retry =>
      dsimp only
      split
      · exact retryOpenBag_inherits localtime label.answers node
      · exact Inherits.refl node
  | diskCheck => exact diskCheckCb_inherits label.answers node
  | message topic =>
      dsimp only
      unfold BagRecorderNode.writeMessage
      split <;> exact Inherits.of_same rfl rfl
  | reboot => exact boot_inherits localtime label.answers node
  | outside storage => exact absurd hrequest (hown storage)

/-! ## Runs -/

/-- A directory that the scans do not skip. -/
def Entry.IsSlot (entry : Entry) : Prop :=
  entry.kind = .directory ∧ entry.name.toList.head? ≠ some '.'

instance (entry : Entry) : Decidable entry.IsSlot := inferInstanceAs (Decidable (_ ∧ _))

/-- Among these entries, every directory that the scans do not skip was created by this run or an
earlier one. -/
def OwnSlots (earlier : String → Prop) (log : List Event) (entries : List Entry) : Prop :=
  ∀ entry ∈ entries, entry.IsSlot → entry.name ∈ chosenNames log ∨ earlier entry.name

/-- Whoever else changes the storage directory brings no directories in. -/
def BringsOwn (earlier : String → Prop) (node : BagRecorderNode) (label : Label) : Prop :=
  ∀ storage, label.request = .outside storage →
    OwnSlots earlier node.log (storage.elim [] (·.entries))

/-- Nobody else's directories are in the storage directory. -/
structure Dedicated (earlier : String → Prop) (node : BagRecorderNode) : Prop where
  entries : OwnSlots earlier node.log node.entries
  slices : ∀ name ∈ chosenNames node.log, IsSlice name

theorem Inherits.dedicated {earlier : String → Prop} {before after : BagRecorderNode}
    (hinherits : Inherits before after) (h : Dedicated earlier before) :
    Dedicated earlier after where
  entries := by
    intro entry hentry hslot
    rcases hinherits.entries entry hentry with hold | hnamed
    · exact (h.entries entry hold hslot).imp_left fun hnamed => hinherits.names hnamed
    · exact Or.inl hnamed
  slices := by
    intro name hname
    rcases hinherits.slices name hname with hold | hslice
    · exact h.slices name hold
    · exact hslice

theorem step_dedicated {localtime : Int → Option Tm} {earlier : String → Prop}
    {node : BagRecorderNode} {label : Label} (h : Dedicated earlier node)
    (hbrings : BringsOwn earlier node label) : Dedicated earlier (step localtime node label) := by
  -- Only a change from outside needs the condition.
  by_cases hown : ∀ storage, label.request ≠ .outside storage
  · exact (step_inherits localtime node label hown).dedicated h
  · push Not at hown
    obtain ⟨storage, hrequest⟩ := hown
    unfold step
    rw [hrequest]
    exact ⟨hbrings storage hrequest, h.slices⟩

/-- The scan sees what was there when the callback began. -/
theorem scanState_entries (node : BagRecorderNode) (label : Label) :
    (scanState node label).entries = node.entries := by
  unfold scanState
  split
  next =>
    split
    · rw [BagRecorderNode.entries, BagRecorderNode.closeWriter_storage]
      exact BagRecorderNode.ensureStorageDir_entries _ _
    · rfl
  next =>
    split
    · rfl
    · exact BagRecorderNode.ensureStorageDir_entries _ _
  next => rfl

/-- The callback deletes visible entries of the storage directory only: the link itself where an
entry is one, and otherwise what is found by descending through directories. -/
def FollowsNoLink (fails : Call → Bool) (contents : String → List (String × Content))
    (node : BagRecorderNode) (label : Label) : Prop :=
  ∀ deletion ∈ deletions node label, ∀ call ∈ deletion.calls fails contents (scanState node label),
    ∃ entry ∈ (scanState node label).entries, entry.name.toList.head? ≠ some '.' ∧
      (scanState node label).fullPath entry.name ≠ (scanState node label).currentBagPath ∧
      (entry.kind = .directory ∧
          call.Finds ((scanState node label).fullPath entry.name)
            (.directory (contents entry.name)) ∨
        entry.kind ≠ .directory ∧ entry.kind ≠ .file ∧
          call = .unlink ((scanState node label).fullPath entry.name))

/-- Nothing else leaves the storage directory. -/
structure Confined (localtime : Int → Option Tm) (fails : Call → Bool)
    (contents : String → List (String × Content)) (node : BagRecorderNode) (label : Label) :
    Prop extends Sweeps localtime node label where
  followsNoLink : FollowsNoLink fails contents node label

theorem confined (localtime : Int → Option Tm) (fails : Call → Bool)
    (contents : String → List (String × Content)) (node : BagRecorderNode) (label : Label) :
    Confined localtime fails contents node label where
  toSweeps := step_sweeps localtime node label
  followsNoLink _ hdeletion _ hcall := (deletions_targets hdeletion).calls hcall

/-- Every directory that the callback deletes was created by this run or an earlier one. -/
def DeletesOwn (earlier : String → Prop) (node : BagRecorderNode) (label : Label) : Prop :=
  ∀ name, .removeDir name ∈ deletions node label →
    IsSlice name ∧ (name ∈ chosenNames node.log ∨ earlier name)

theorem Dedicated.deletesOwn {earlier : String → Prop} {node : BagRecorderNode}
    (h : Dedicated earlier node) (hearlier : ∀ name, earlier name → IsSlice name)
    (label : Label) : DeletesOwn earlier node label := by
  intro name hdeletion
  obtain ⟨entry, hentry, hvisible, _, ⟨hname, hkind⟩ | ⟨hname, _⟩⟩ := deletions_targets hdeletion
  · cases hname
    rw [scanState_entries] at hentry
    rcases h.entries entry hentry ⟨hkind, hvisible⟩ with hnamed | hbrought
    · exact ⟨h.slices _ hnamed, Or.inl hnamed⟩
    · exact ⟨hearlier _ hbrought, Or.inr hbrought⟩
  · cases hname

/-- In every run in which nobody else puts directories into the storage directory; and whatever
is put there, nothing is deleted through a link. The first start is the step of a restart in a
node that has done nothing yet. -/
theorem run_deletesOwn (localtime : Int → Option Tm) (cfg : Config) (storage : Option Storage)
    (answers : Answers) (labels : List Label) (label : Label) (fails : Call → Bool)
    (contents : String → List (String × Content)) (earlier : String → Prop)
    (hearlier : ∀ name, earlier name → IsSlice name) :
    (Confined localtime fails contents { cfg, storage } ⟨.reboot, answers⟩ ∧
        Confined localtime fails contents
          (run (step localtime) (initial localtime cfg storage answers) labels) label) ∧
      (OwnSlots earlier [] (storage.elim [] (·.entries)) →
        DeletesOwn earlier { cfg, storage } ⟨.reboot, answers⟩ ∧
          (EveryStep (step localtime) (BringsOwn earlier) (initial localtime cfg storage answers)
              labels →
            DeletesOwn earlier
              (run (step localtime) (initial localtime cfg storage answers) labels) label)) := by
  refine ⟨⟨confined localtime fails contents _ _, confined localtime fails contents _ _⟩, ?_⟩
  intro hstorage
  have hfresh : Dedicated earlier { cfg, storage } :=
    ⟨hstorage, fun _ hname => absurd hname List.not_mem_nil⟩
  refine ⟨hfresh.deletesOwn hearlier ⟨.reboot, answers⟩, fun hlabels => ?_⟩
  have hinitial : Dedicated earlier (initial localtime cfg storage answers) :=
    (boot_inherits localtime answers _).dedicated hfresh
  have hrun := run_keeps (step localtime) (Dedicated earlier) (fun _ _ => step_dedicated) hinitial
    hlabels
  exact hrun.deletesOwn hearlier label

/-- A home directory with the slice of an earlier run, and what its owner keeps there. -/
def home (documents : EntryKind) : Option Storage :=
  some ⟨0, [⟨"20260714120000", .directory⟩, ⟨".ssh", .directory⟩, ⟨"Documents", documents⟩,
    ⟨"latest", .symlink false⟩]⟩

def homeConfig : Config := { storagePath := "/home/pilot" }

theorem isSlice_noon : IsSlice "20260714120000" :=
  ⟨fun _ => some ⟨126, 6, 14, 12, 0, 0⟩, 0, 0, by decide⟩

/-- The documents are a file, and the node records from the start, so that the constructor cleans
up. -/
theorem deletesOwn_home :
    DeletesOwn (· = "20260714120000")
        { cfg := { homeConfig with armRecordEnabled := false }, storage := home .file }
        ⟨.reboot, {}⟩ ∧
      Confined epochDay (fun _ => false) (fun _ => [("latest", .symlink "/")])
        (initial epochDay homeConfig (home .file) {}) ⟨.state true, {}⟩ ∧
      DeletesOwn (· = "20260714120000") (initial epochDay homeConfig (home .file) {})
        ⟨.state true, {}⟩ := by
  have hown : OwnSlots (· = "20260714120000") [] ((home .file).elim [] (·.entries)) := by
    unfold OwnSlots home
    decide
  have hboot := run_deletesOwn epochDay { homeConfig with armRecordEnabled := false }
    (home .file) {} [] ⟨.diskCheck, {}⟩ (fun _ => false) (fun _ => [("latest", .symlink "/")])
    (· = "20260714120000") (fun name hname => hname ▸ isSlice_noon)
  have harm := run_deletesOwn epochDay homeConfig (home .file) {} [] ⟨.state true, {}⟩
    (fun _ => false) (fun _ => [("latest", .symlink "/")]) (· = "20260714120000")
    (fun name hname => hname ▸ isSlice_noon)
  exact ⟨(hboot.2 hown).1, harm.1.2, (harm.2 hown).2 trivial⟩

/-- The documents are a directory of the owner's in an accepted storage path, and the first
arming deletes it. -/
theorem not_deletesOwn_home :
    ¬ ∀ (localtime : Int → Option Tm) (cfg : Config) (storage : Option Storage)
        (answers : Answers) (labels : List Label) (label : Label),
      validateStoragePath cfg.storagePath = .ok cfg.storagePath →
        ∀ deletion ∈ deletions (run (step localtime) (initial localtime cfg storage answers)
          labels) label, ∃ name, deletion = .removeDir name ∧ IsSlice name := by
  intro hall
  obtain ⟨name, hname, hslice⟩ := hall epochDay homeConfig (home .directory) {} []
    ⟨.state true, {}⟩ (by decide +kernel) (.removeDir "Documents") (by decide)
  cases hname
  have hchar : IsSliceChar 'D' := hslice.isSliceChar (by decide)
  unfold IsSliceChar at hchar
  revert hchar
  decide

end AcflyRos.BagLogd

import AcflyRos.BagLogd.Containment

/-! # What `remove_dir` leaves

`remove_dir` of `bag_logd_node.cpp` when no call fails: the directory is gone afterwards, but for
what its loop passes over, which keeps all directories above it from being empty, and but for a
path that leads through what is deleted before the directory itself.
-/

namespace AcflyRos.BagLogd

open AcflyRos.Paths AcflyRos.Resolution AcflyRos.Transition

/-- The loop passes over the name, as it passes over `.` and `..`. -/
def Hidden (name : String) : Prop := name.toList.head? = some '.'

instance (name : String) : Decidable (Hidden name) := inferInstanceAs (Decidable (_ = _))

namespace Content

/-- A call that is meant for one entry may delete it. -/
def Deletable (content : Content) : Prop :=
  content.kind ≠ .directory ∨ content.isEmptyDirectory = true

theorem Deletable.find_cons {content : Content} (h : content.Deletable) (name : String)
    (rest : List String) : content.find (name :: rest) = none := by
  cases content with
  | file | symlink => rfl
  | directory entries =>
      rcases h with hkind | hempty
      · exact absurd rfl hkind
      · rw [List.isEmpty_iff.mp hempty]
        rfl

theorem isEmptyDirectory_of_view {root : Content} {loc : List String}
    (hdirectory : root.view loc = some .directory)
    (hnone : ∀ name, root.view (loc ++ [name]) = none) :
    (root.find loc).any isEmptyDirectory = true := by
  unfold view at hdirectory hnone
  obtain ⟨content, hfind, hkind⟩ := Option.map_eq_some_iff.mp hdirectory
  cases content with
  | file | symlink => cases hkind
  | directory entries =>
      rw [hfind]
      cases entries with
      | nil => rfl
      | cons entry rest =>
          have hentry := hnone entry.1
          rw [find_append, hfind, Option.bind_some, find_directory, List.lookup_cons_self] at hentry
          cases hentry

/-- What lies below something lies below a directory. -/
theorem view_isSome_of_append {root : Content} {loc inner : List String}
    (hsome : (root.view (loc ++ inner)).isSome) : (root.view loc).isSome := by
  unfold view at hsome ⊢
  rw [Option.isSome_map] at hsome ⊢
  rw [find_append] at hsome
  exact Option.isSome_of_isSome_bind hsome

end Content

namespace Disk

section Entries

variable {fails : Call → Bool} {disk next : Disk} {path name : String} {loc : List String}

/-- What the body of the loop does with one entry. -/
theorem removeEntry_cases {removeDir : String → Disk → Option Disk}
    (hnext : disk.removeEntry fails removeDir path name = some next) :
    (Hidden name ∧ next = disk) ∨
      ¬ Hidden name ∧ (disk.lstat fails (path ++ ("/" ++ name)) = none ∧ next = disk ∨
        (∃ kind call deletes, disk.lstat fails (path ++ ("/" ++ name)) = some kind ∧
          kind ≠ .directory ∧ call.path = path ++ ("/" ++ name) ∧
          (∀ content : Content, deletes content = true → content.Deletable) ∧
          (∀ content : Content, content.kind ≠ .directory → deletes content = true) ∧
          next = disk.delete fails call deletes) ∨
        disk.lstat fails (path ++ ("/" ++ name)) = some .directory ∧
          removeDir (path ++ ("/" ++ name)) disk = some next) := by
  unfold removeEntry at hnext
  split at hnext
  next hdot => exact Or.inl ⟨hdot, (Option.some.inj hnext).symm⟩
  next hdot =>
    refine Or.inr ⟨hdot, ?_⟩
    dsimp only at hnext
    split at hnext
    next hlstat => exact Or.inl ⟨hlstat, (Option.some.inj hnext).symm⟩
    next target hlstat =>
      refine Or.inr (Or.inl ⟨.symlink target, .unlink _, fun content => content.kind != .directory,
        hlstat, by simp, rfl, ?_, ?_, (Option.some.inj hnext).symm⟩)
      · intro content hdeletes
        exact Or.inl (by simpa using hdeletes)
      · intro content hkind
        simpa using hkind
    next hlstat => exact Or.inr (Or.inr ⟨hlstat, hnext⟩)
    next hlstat =>
      refine Or.inr (Or.inl ⟨.file, .remove _,
        fun content => content.kind != .directory || content.isEmptyDirectory,
        hlstat, by simp, rfl, ?_, ?_, (Option.some.inj hnext).symm⟩)
      · intro content hdeletes
        simpa [Content.Deletable] using hdeletes
      · intro content hkind
        simp [hkind]

/-- Nothing lies below what a call may delete. -/
theorem not_prefix_of_deletable {found : List String} {content : Content}
    (hfind : disk.root.find found = some content) (hdeletable : content.Deletable)
    (hne : found ≠ loc) (hsome : (disk.view loc).isSome) : ¬ found <+: loc := by
  rintro ⟨inner, rfl⟩
  cases inner with
  | nil => exact hne (List.append_nil found).symm
  | cons name rest =>
      rw [view, Content.view, Content.find_append, hfind, Option.bind_some,
        hdeletable.find_cons] at hsome
      cases hsome

/-- A call that is not meant for it leaves it where it is. -/
theorem delete_keeps {call : Call} {deletes : Content → Bool}
    (hdeletes : ∀ content : Content, deletes content = true → content.Deletable)
    (hother : ∀ found, disk.locate call.path = some found → found ≠ loc)
    (hsome : (disk.view loc).isSome) : ((disk.delete fails call deletes).view loc).isSome := by
  unfold delete
  split
  next => exact hsome
  next found hfound =>
    split
    next hdeleted =>
      obtain ⟨content, hfind, hcontent⟩ := (Option.any_eq_true _ _).mp hdeleted.2
      have hbelow := not_prefix_of_deletable hfind (hdeletes content hcontent)
        (hother found hfound) hsome
      unfold erase
      split
      next => exact hsome
      next => rwa [view, disk.root.view_erase_of_not_prefix hbelow]
    next => exact hsome

/-- A call that does not fail deletes what it is meant for. -/
theorem delete_deletes {call : Call} {deletes : Content → Bool} (hroot : loc ≠ [])
    (hlocate : disk.locate call.path = some loc) (hsucceeds : fails call = false)
    (hdeletes : (disk.root.find loc).any deletes = true) :
    (disk.delete fails call deletes).view loc = none := by
  unfold delete
  rw [hlocate]
  dsimp only
  rw [if_pos ⟨hsucceeds, hdeletes⟩, erase, dif_neg hroot, view, Content.view,
    Content.find_erase_of_prefix hroot _ List.prefix_rfl, Option.map_none]

theorem isName_of_visible (hname : name = "." ∨ name = ".." ∨ name ≠ "" ∧ '/' ∉ name.toList)
    (hdot : ¬ Hidden name) : IsName name ∧ name ≠ ".." := by
  have hself : name ≠ "." := fun hself => hdot (by rw [hself]; rfl)
  have hup : name ≠ ".." := fun hup => hdot (by rw [hup]; rfl)
  have hproper := (hname.resolve_left hself).resolve_left hup
  exact ⟨⟨hproper.2, hproper.1, hself⟩, hup⟩

/-- Where the path of an entry leads. -/
theorem entry_leads (hleads : disk.LeadsTo path loc) (hpath : path ≠ "")
    (hname : name = "." ∨ name = ".." ∨ name ≠ "" ∧ '/' ∉ name.toList) (hdot : ¬ Hidden name)
    {found : List String} (hfound : disk.locate (path ++ ("/" ++ name)) = some found) :
    found = loc ++ [name] := by
  obtain ⟨hproper, hup⟩ := isName_of_visible hname hdot
  exact hleads.entry hpath hproper hup hfound

end Entries

section Calls

variable {fails : Call → Bool} {disk later next after : Disk} {path name : String}
  {loc : List String} {fuel : Nat}

/-- However much fuel there was. -/
theorem containedIn_of_removeDir (hleads : disk.LeadsTo path loc)
    (hexists : (disk.view loc).isSome) (hafter : disk.removeDir fails fuel path = some after) :
    ContainedIn loc disk after := by
  obtain ⟨after', enough, hcontained, hmore⟩ := removeDir_ends fails hleads hexists
  have hsame := removeDir_mono (Nat.le_add_left fuel enough) hafter
  rw [hmore (enough + fuel) (Nat.le_add_right enough fuel)] at hsame
  rwa [← Option.some.inj hsame]

theorem containedIn_of_removeEntry (hleads : disk.LeadsTo path loc) (hpath : path ≠ "")
    (hname : name = "." ∨ name = ".." ∨ name ≠ "" ∧ '/' ∉ name.toList)
    (hnext : disk.removeEntry fails (removeDir fails fuel) path name = some next) :
    ContainedIn (loc ++ [name]) disk next := by
  obtain ⟨_, rfl⟩ | ⟨hdot, ⟨_, rfl⟩ | ⟨_, call, _, _, _, hcall, _, _, rfl⟩ | ⟨hlstat, hinside⟩⟩ :=
    removeEntry_cases hnext
  · exact .refl _ _
  · exact .refl _ _
  · apply delete_containedIn
    rw [hcall]
    exact fun found => entry_leads hleads hpath hname hdot
  · obtain ⟨found, hfound, hdirectory⟩ := lstat_some hlstat
    obtain rfl := entry_leads hleads hpath hname hdot hfound
    have hentry := LeadsTo.of_directory (fun found => entry_leads hleads hpath hname hdot) hfound
      hdirectory
    exact containedIn_of_removeDir hentry (by rw [hdirectory]; rfl) hinside

/-- Where the loop of a call stands: it has deleted only below the directory, which is there. -/
structure Underway (loc : List String) (disk later : Disk) : Prop where
  contained : ContainedIn loc disk later
  directory : later.view loc = some .directory

theorem Underway.entry (h : Underway loc disk later)
    (hentry : ContainedIn (loc ++ [name]) later next) : Underway loc disk next where
  contained := h.contained.trans (hentry.mono (List.prefix_append loc [name]))
  directory := by
    rw [hentry.elsewhere loc, h.directory]
    intro hinside
    simpa using hinside.length_le

theorem opendir_entries (hleads : disk.LeadsTo path loc) {names : List String}
    (hopen : disk.opendir fails path = some names) :
    ∃ entries, disk.root.find loc = some (.directory entries) ∧
      names = "." :: ".." :: entries.map (·.1) := by
  rw [opendir, Option.ite_none_left_eq_some] at hopen
  obtain ⟨found, hfound, hnames⟩ := Option.bind_eq_some_iff.mp hopen.2
  obtain rfl := hleads.resolve found hfound
  split at hnames
  next entries hentries => exact ⟨entries, hentries, (Option.some.inj hnames).symm⟩
  next => cases hnames

theorem underway_start (hleads : disk.LeadsTo path loc) {names : List String}
    (hopen : disk.opendir fails path = some names) : Underway loc disk disk := by
  obtain ⟨entries, hentries, _⟩ := opendir_entries hleads hopen
  exact ⟨.refl loc disk, by rw [view, Content.view, hentries]; rfl⟩

/-- What one entry of the loop does, wherever the loop stands. -/
theorem Underway.removeEntry (h : Underway loc disk later) (hleads : disk.LeadsTo path loc)
    {names : List String} (hopen : disk.opendir fails path = some names) (hname : name ∈ names)
    (hnext : later.removeEntry fails (removeDir fails fuel) path name = some next) :
    ContainedIn (loc ++ [name]) later next ∧ Underway loc disk next := by
  obtain ⟨hpath, hnames⟩ := opendir_some hopen
  have hentry := containedIn_of_removeEntry (hleads.mono h.contained) hpath (hnames name hname)
    hnext
  exact ⟨hentry, h.entry hentry⟩

/-! ## What is passed over -/

/-- What is passed over stays, with everything above it, whatever the calls do. -/
theorem removeDir_keeps {dir : List String} {hidden : String} (hhidden : Hidden hidden)
    (hne : loc ≠ dir ++ [hidden]) (hleads : disk.LeadsTo path loc)
    (hsome : (disk.view (dir ++ [hidden])).isSome)
    (hafter : disk.removeDir fails fuel path = some after) :
    (after.view (dir ++ [hidden])).isSome := by
  induction fuel generalizing disk path loc after with
  | zero => cases hafter
  | succ fuel ih =>
      rw [removeDir] at hafter
      cases hopen : disk.opendir fails path with
      | none =>
          rw [hopen] at hafter
          rwa [← Option.some.inj hafter]
      | some names =>
          rw [hopen] at hafter
          obtain ⟨emptied, hemptied, rfl⟩ := Option.map_eq_some_iff.mp hafter
          have hloop : Underway loc disk emptied ∧ (emptied.view (dir ++ [hidden])).isSome := by
            refine foldlM_keeps
              (fun later => Underway loc disk later ∧ (later.view (dir ++ [hidden])).isSome)
              (fun later name hname next hlater hnext => ?_)
              ⟨underway_start hleads hopen, hsome⟩ hemptied
            obtain ⟨_, hunderway⟩ := hlater.1.removeEntry hleads hopen hname hnext
            refine ⟨hunderway, ?_⟩
            have hlead := hleads.mono hlater.1.contained
            obtain ⟨hpath, hnames⟩ := opendir_some hopen
            have hentry : ∀ found, ¬ Hidden name →
                later.locate (path ++ ("/" ++ name)) = some found → found = loc ++ [name] :=
              fun found hdot => entry_leads hlead hpath (hnames name hname) hdot
            -- The loop goes for entries that are not hidden, and this one is.
            have hother : ¬ Hidden name → loc ++ [name] ≠ dir ++ [hidden] := by
              intro hdot hsame
              have hlast := (List.append_inj' hsame rfl).2
              exact hdot (by rwa [List.cons.inj hlast |>.1])
            obtain ⟨_, rfl⟩ | ⟨hdot, ⟨_, rfl⟩ | ⟨_, call, _, _, _, hcall, hdeletes, _, rfl⟩ |
              ⟨hlstat, hinside⟩⟩ := removeEntry_cases hnext
            · exact hlater.2
            · exact hlater.2
            · refine delete_keeps hdeletes (fun found hfound => ?_) hlater.2
              rw [hcall] at hfound
              rw [hentry found hdot hfound]
              exact hother hdot
            · obtain ⟨found, hfound, hdirectory⟩ := lstat_some hlstat
              obtain rfl := hentry found hdot hfound
              exact ih (hother hdot)
                (.of_directory (fun found => hentry found hdot) hfound hdirectory) hlater.2 hinside
          refine delete_keeps (fun content => Or.inr) (fun found hfound => ?_) hloop.2
          rwa [(hleads.mono hloop.1.contained).locate found hfound]

end Calls

/-! ## What is deleted -/

/-- The path leads to the location also when nothing is below it: it does not pass through
anything that is deleted before the directory itself. -/
def ReachedBare (disk : Disk) (path : String) (loc : List String) : Prop :=
  Resolution.locate (disk.view.bare loc) disk.cwd (path.toList.head? = some '/')
    (components path) = some loc

section Reached

variable {disk later : Disk} {path name : String} {loc : List String}

/-- All that is not below the directory is there as long as the loop is under way. -/
theorem Underway.shrinks (h : Underway loc disk later) :
    Shrinks later.view (disk.view.bare loc) := by
  intro other kind hkind
  unfold View.bare at hkind
  split at hkind
  next => cases hkind
  next hbelow =>
    by_cases hself : other = loc
    · rw [hself] at hkind ⊢
      rw [← hkind, h.directory, h.contained.deletes loc _ h.directory]
    · rw [h.contained.elsewhere other fun hinside => hbelow ⟨hinside, hself⟩]
      exact hkind

theorem ReachedBare.locate (hreach : disk.ReachedBare path loc) (hpath : path ≠ "")
    (h : Underway loc disk later) : later.locate path = some loc := by
  rw [Disk.locate, if_neg hpath, h.contained.cwd]
  exact h.shrinks.locate hreach

/-- As long as everything is there that is not below the directory, its entries are found by their
paths. -/
theorem ReachedBare.locate_entry (hreach : disk.ReachedBare path loc) (hpath : path ≠ "")
    (hname : IsName name) (hup : name ≠ "..") {view : View}
    (hshrinks : Shrinks view (disk.view.bare loc)) (hdirectory : disk.view loc = some .directory)
    (hentry : (view (loc ++ [name])).isSome) :
    Resolution.locate view disk.cwd ((path ++ ("/" ++ name)).toList.head? = some '/')
      (components (path ++ ("/" ++ name))) = some (loc ++ [name]) := by
  have hbare : disk.view.bare loc loc = some .directory := by rw [bare_self, hdirectory]
  rw [components_slash, hname.components_eq, head?_entry hpath]
  exact Resolution.locate_entry hup (hshrinks.resolve (Resolution.resolve_of_locate hreach hbare))
    (hshrinks loc _ hbare) hentry

end Reached

section Removal

variable {disk later next after : Disk} {path name : String} {loc : List String} {fuel : Nat}

/-- No name below the location is passed over. -/
def AllVisible (disk : Disk) (loc : List String) : Prop :=
  ∀ inner name, (disk.view (loc ++ inner ++ [name])).isSome → ¬ Hidden name

/-- One entry of the loop deletes what it names, provided that the call for a directory does. -/
theorem removeEntry_deletes (h : Underway loc disk later) (hreach : disk.ReachedBare path loc)
    (hleads : disk.LeadsTo path loc) (hpath : path ≠ "")
    (hname : name = "." ∨ name = ".." ∨ name ≠ "" ∧ '/' ∉ name.toList) (hdot : ¬ Hidden name)
    (hinside : later.view (loc ++ [name]) = some .directory →
      later.ReachedBare (path ++ ("/" ++ name)) (loc ++ [name]) →
      later.LeadsTo (path ++ ("/" ++ name)) (loc ++ [name]) →
      later.removeDir (fun _ => false) fuel (path ++ ("/" ++ name)) = some next →
      next.view (loc ++ [name]) = none)
    (hnext : later.removeEntry (fun _ => false) (removeDir (fun _ => false) fuel) path name =
      some next) :
    next.view (loc ++ [name]) = none := by
  have hdirectory := h.contained.deletes loc _ h.directory
  obtain ⟨hproper, hup⟩ := isName_of_visible hname hdot
  have hlocate : (later.view (loc ++ [name])).isSome →
      later.locate (path ++ ("/" ++ name)) = some (loc ++ [name]) := by
    intro hsome
    rw [Disk.locate, if_neg (by simp), h.contained.cwd]
    exact hreach.locate_entry hpath hproper hup h.shrinks hdirectory hsome
  have hentry : ∀ found, later.locate (path ++ ("/" ++ name)) = some found →
      found = loc ++ [name] :=
    fun found => entry_leads (hleads.mono h.contained) hpath hname hdot
  obtain ⟨hhidden, _⟩ | ⟨_, ⟨hlstat, rfl⟩ | ⟨kind, call, deletes, hlstat, hkind, hcall, _, hdeletes,
    rfl⟩ | ⟨hlstat, hremoved⟩⟩ := removeEntry_cases hnext
  · exact absurd hhidden hdot
  · by_contra hsome
    have hsome := Option.isSome_iff_ne_none.mpr hsome
    rw [lstat, if_neg Bool.false_ne_true, hlocate hsome] at hlstat
    rw [Option.isSome_iff_ne_none] at hsome
    exact hsome hlstat
  · obtain ⟨found, hfound, hview⟩ := lstat_some hlstat
    obtain rfl := hentry found hfound
    obtain ⟨content, hfind, hcontent⟩ := Option.map_eq_some_iff.mp hview
    refine delete_deletes (by simp) (by rwa [hcall]) rfl ?_
    rw [hfind]
    exact hdeletes content (by rwa [hcontent])
  · obtain ⟨found, hfound, hview⟩ := lstat_some hlstat
    obtain rfl := hentry found hfound
    refine hinside hview ?_ (.of_directory hentry hfound hview) hremoved
    unfold ReachedBare
    rw [h.contained.cwd]
    refine hreach.locate_entry hpath hproper hup ?_ hdirectory (by rw [bare_self, hview]; rfl)
    intro other kind hkind
    have hbelow : ¬ (loc ++ [name] <+: other ∧ other ≠ loc ++ [name]) := by
      rintro ⟨hinside, _⟩
      have hne : other ≠ loc := by
        rintro rfl
        simpa using hinside.length_le
      rw [View.bare, if_pos ⟨(List.prefix_append loc [name]).trans hinside, hne⟩] at hkind
      cases hkind
    rw [View.bare, if_neg hbelow]
    exact h.shrinks other kind hkind

/-- What hides nothing, and is reached without what is below it, is gone. -/
theorem removeDir_deletes (hroot : loc ≠ []) (hdirectory : disk.view loc = some .directory)
    (hpath : path ≠ "") (hleads : disk.LeadsTo path loc) (hreach : disk.ReachedBare path loc)
    (hvisible : disk.AllVisible loc)
    (hafter : disk.removeDir (fun _ => false) fuel path = some after) : after.view loc = none := by
  induction fuel generalizing disk path loc after with
  | zero => cases hafter
  | succ fuel ih =>
      rw [removeDir] at hafter
      have hself : Underway loc disk disk := ⟨.refl loc disk, hdirectory⟩
      have hresolve := resolve_of_locate (hreach.locate hpath hself) hdirectory
      obtain ⟨content, hfind, hkind⟩ := Option.map_eq_some_iff.mp hdirectory
      cases content with
      | file | symlink => cases hkind
      | directory entries =>
          have hopen : disk.opendir (fun _ => false) path =
              some ("." :: ".." :: entries.map (·.1)) := by
            rw [opendir, if_neg Bool.false_ne_true, hresolve, Option.bind_some, hfind]
          rw [hopen] at hafter
          obtain ⟨emptied, hemptied, rfl⟩ := Option.map_eq_some_iff.mp hafter
          obtain ⟨_, hnames⟩ := opendir_some hopen
          have hloop := foldlM_covers (Underway loc disk)
            (fun name later => ¬ Hidden name → later.view (loc ++ [name]) = none)
            (fun later name hname next hlater hnext => by
              obtain ⟨hentry, hnextUnderway⟩ := hlater.removeEntry hleads hopen hname hnext
              refine ⟨hnextUnderway, fun hdot => ?_, fun other hother hdot => ?_⟩
              · refine removeEntry_deletes hlater hreach hleads hpath (hnames name hname) hdot
                  (fun hinner hreached hled hremoved => ?_) hnext
                refine ih (by simp) hinner (by simp) hled hreached ?_ hremoved
                intro inner other hsome
                rw [List.append_assoc loc, List.append_assoc] at hsome
                have hbefore := hlater.contained.deletes.isSome hsome
                rw [← List.append_assoc, ← List.append_assoc, List.append_assoc loc] at hbefore
                exact hvisible _ _ hbefore
              · exact hentry.deletes.eq_none (hother hdot)) hself hemptied
          obtain ⟨hunderway, _, hgone⟩ := hloop
          refine delete_deletes hroot (hreach.locate hpath hunderway) rfl ?_
          refine Content.isEmptyDirectory_of_view hunderway.directory fun name => ?_
          -- What would still be there was there before, and so the loop has been for it.
          by_contra hleft
          have hbefore := hunderway.contained.deletes.isSome (Option.isSome_iff_ne_none.mpr hleft)
          have hdot : ¬ Hidden name := hvisible [] name (by rwa [List.append_nil])
          refine hleft (hgone name ?_ hdot)
          rw [view, Content.view, Option.isSome_map, Content.find_append, hfind, Option.bind_some,
            Content.find_directory] at hbefore
          obtain ⟨entry, hentry, hsame⟩ :=
            List.lookup_isSome_iff.mp (Option.isSome_of_isSome_bind hbefore)
          rw [beq_iff_eq] at hsame
          exact List.mem_cons_of_mem _ (List.mem_cons_of_mem _
            (List.mem_map.mpr ⟨entry, hentry, hsame.symm⟩))

/-- `rmdir` has found its directory, and nothing in it. -/
theorem rmdir_removed {fails : Call → Bool} (hleads : disk.LeadsTo path loc)
    (hdirectory : disk.view loc = some .directory)
    (hgone : (disk.rmdir fails path).view loc = none) :
    disk.locate path = some loc ∧
      ∃ content, disk.root.find loc = some content ∧ content.isEmptyDirectory = true := by
  unfold rmdir delete at hgone
  split at hgone
  next =>
    rw [hdirectory] at hgone
    cases hgone
  next found hfound =>
    obtain rfl := hleads.locate found hfound
    split at hgone
    next hdeleted => exact ⟨hfound, (Option.any_eq_true _ _).mp hdeleted.2⟩
    next =>
      rw [hdirectory] at hgone
      cases hgone

/-- What is gone has been deleted by `rmdir`, when nothing was below it any more. -/
theorem reachedBare_of_removed (hdirectory : disk.view loc = some .directory)
    (hleads : disk.LeadsTo path loc)
    (hafter : disk.removeDir (fun _ => false) fuel path = some after)
    (hgone : after.view loc = none) : disk.ReachedBare path loc := by
  cases fuel with
  | zero => cases hafter
  | succ fuel =>
      rw [removeDir] at hafter
      cases hopen : disk.opendir (fun _ => false) path with
      | none =>
          rw [hopen] at hafter
          rw [← Option.some.inj hafter, hdirectory] at hgone
          cases hgone
      | some names =>
          rw [hopen] at hafter
          obtain ⟨emptied, hemptied, rfl⟩ := Option.map_eq_some_iff.mp hafter
          have hloop : Underway loc disk emptied :=
            foldlM_keeps (Underway loc disk)
              (fun later name hname next hlater hnext =>
                (hlater.removeEntry hleads hopen hname hnext).2)
              (underway_start hleads hopen) hemptied
          obtain ⟨hlocate, content, hfind, hempty⟩ :=
            rmdir_removed (hleads.mono hloop.contained) hloop.directory hgone
          have hshrinks : Shrinks (disk.view.bare loc) emptied.view := by
            intro other kind hkind
            rw [View.bare, if_neg, hloop.contained.deletes other kind hkind]
            rintro ⟨⟨inner, rfl⟩, hne⟩
            refine not_prefix_of_deletable hfind (Or.inr hempty) (Ne.symm hne) ?_
              (List.prefix_append loc inner)
            rw [hkind]
            rfl
          have hpath := (opendir_some hopen).1
          rw [Disk.locate, if_neg hpath, hloop.contained.cwd] at hlocate
          exact hshrinks.locate hlocate

end Removal

/-- The call ends, and no directory is left. -/
def Removes (disk : Disk) (path : String) (loc : List String) : Prop :=
  ∃ after fuel, (∀ more, fuel ≤ more → disk.removeDir (fun _ => false) more path = some after) ∧
    after.view loc = none

section Removes

variable {disk : Disk} {path : String} {loc : List String}

theorem Removes.allVisible (hlocate : disk.locate path = some loc)
    (hdirectory : disk.view loc = some .directory) (hremoves : disk.Removes path loc) :
    disk.AllVisible loc := by
  obtain ⟨after, fuel, hmore, hgone⟩ := hremoves
  intro inner name hsome hhidden
  have hne : loc ≠ loc ++ inner ++ [name] := by
    intro hsame
    simpa using congrArg List.length hsame
  have hkept := removeDir_keeps hhidden hne (leadsTo_of_locate hlocate hdirectory) hsome
    (hmore fuel le_rfl)
  rw [List.append_assoc] at hkept
  have hleft := Content.view_isSome_of_append hkept
  rw [view] at hgone
  rw [hgone] at hleft
  cases hleft

end Removes

/-- When no call fails, `remove_dir` deletes a directory exactly if no name below it begins with a
dot and its path does not pass through anything below it. The root is not deleted at all. -/
theorem removes_iff (disk : Disk) (path : String) (loc : List String)
    (hlocate : disk.locate path = some loc) (hdirectory : disk.view loc = some .directory) :
    disk.Removes path loc ↔ loc ≠ [] ∧ disk.AllVisible loc ∧ disk.ReachedBare path loc := by
  have hleads := leadsTo_of_locate hlocate hdirectory
  constructor
  · intro hremoves
    refine ⟨?_, hremoves.allVisible hlocate hdirectory, ?_⟩
    · rintro rfl
      obtain ⟨_, _, _, hgone⟩ := hremoves
      cases hgone
    · obtain ⟨after, fuel, hmore, hgone⟩ := hremoves
      exact reachedBare_of_removed hdirectory hleads (hmore fuel le_rfl) hgone
  · rintro ⟨hroot, hvisible, hreach⟩
    have hpath : path ≠ "" := by
      rintro rfl
      cases hlocate
    obtain ⟨after, fuel, _, hmore⟩ :=
      removeDir_ends (fun _ => false) hleads (by rw [hdirectory]; rfl)
    exact ⟨after, fuel, hmore, removeDir_deletes hroot hdirectory hpath hleads hreach hvisible
      (hmore fuel le_rfl)⟩

end Disk

/-- Nothing in `/etc` is hidden. -/
theorem removes_etc : Disk.Removes ⟨entangled, [], named_entangled⟩ "/etc" ["etc"] := by
  refine (Disk.removes_iff ⟨entangled, [], named_entangled⟩ "/etc" ["etc"] (by decide +kernel)
    (by decide +kernel)).mpr ⟨by decide, ?_, by unfold Disk.ReachedBare; decide +kernel⟩
  intro inner name hsome
  have hfind : (Content.find (inner ++ [name]) (.directory [("passwd", .file)])).isSome := by
    rwa [Disk.view, Content.view, Option.isSome_map, List.append_assoc] at hsome
  cases inner with
  | nil =>
      rw [List.nil_append, Content.find_directory] at hfind
      have hlookup := Option.isSome_of_isSome_bind hfind
      obtain rfl : name = "passwd" := by simpa [List.lookup_isSome_iff] using hlookup
      decide
  | cons first rest =>
      rw [List.cons_append, Content.find_directory] at hfind
      obtain ⟨found, hfound⟩ := Option.isSome_iff_exists.mp hfind
      obtain ⟨content, hlookup, hinside⟩ := Option.bind_eq_some_iff.mp hfound
      obtain ⟨_, _, hentries, _⟩ := List.lookup_eq_some_iff.mp hlookup
      have hmem : (first, content) ∈ [("passwd", Content.file)] := by rw [hentries]; simp
      obtain ⟨_, rfl⟩ := Prod.mk.inj (List.mem_singleton.mp hmem)
      cases rest <;> cases hinside

/-- The slice with a hidden file stays. -/
theorem not_removes_entangled :
    ¬ Disk.Removes ⟨entangled, [], named_entangled⟩ "/data/a" ["data", "a"] := by
  intro hremoves
  have hvisible := hremoves.allVisible (by decide +kernel) (by decide +kernel)
  exact hvisible [] ".hidden" (by decide +kernel) (by decide +kernel)

end AcflyRos.BagLogd

import AcflyRos.BagLogd.Removal
import AcflyRos.Foundation.Resolution
import AcflyRos.Foundation.Transition

/-! # What `remove_dir` can reach

`remove_dir` of `bag_logd_node.cpp` by its system calls, on a whole file system with links
that may lead anywhere. Every call resolves its path anew: `opendir` follows a link at the
end, and the others do not.
-/

namespace AcflyRos.BagLogd

open AcflyRos.Paths AcflyRos.Resolution AcflyRos.Transition

namespace Content

def kind : Content → Kind
  | file => .file
  | symlink target => .symlink target
  | directory _ => .directory

/-- Descends by names, never through a link. -/
def find : List String → Content → Option Content
  | [], content => some content
  | name :: rest, directory entries => (entries.lookup name).bind (find rest)
  | _ :: _, _ => none

def isEmptyDirectory : Content → Bool
  | directory entries => entries.isEmpty
  | _ => false

/-- What lies at each location. -/
def view (root : Content) : View := fun loc => (root.find loc).map kind

/-- The entry at the end leaves its directory. -/
def erase : List String → Content → Content
  | name :: rest, directory entries =>
      directory (if rest = [] then entries.filter (·.1 ≠ name)
        else entries.map fun entry =>
          (entry.1, if entry.1 = name then erase rest entry.2 else entry.2))
  | _, content => content

section Lookup

variable (entries : List (String × Content)) (name other : String)

theorem lookup_filter_ne : (entries.filter (·.1 ≠ name)).lookup other =
    if other = name then none else entries.lookup other := by
  induction entries with
  | nil => simp
  | cons entry rest ih => grind

theorem lookup_map_value (change : Content → Content) :
    (entries.map fun entry => (entry.1, if entry.1 = name then change entry.2
      else entry.2)).lookup other =
        if other = name then (entries.lookup other).map change else entries.lookup other := by
  induction entries with
  | nil => simp
  | cons entry rest ih =>
      rw [List.map_cons, List.lookup_cons, List.lookup_cons, ih]
      by_cases hentry : other = entry.1
      · subst hentry
        by_cases hname : entry.1 = name <;> simp [hname]
      · have hbeq : (other == entry.1) = false := beq_eq_false_iff_ne.mpr hentry
        simp only [hbeq]

end Lookup

theorem find_directory (entries : List (String × Content)) (name : String) (rest : List String) :
    (directory entries).find (name :: rest) = (entries.lookup name).bind (find rest) := rfl

theorem find_append (root : Content) (loc inner : List String) :
    root.find (loc ++ inner) = (root.find loc).bind (find inner) := by
  induction loc generalizing root with
  | nil => rfl
  | cons name rest ih =>
      cases root with
      | file | symlink => rfl
      | directory entries =>
          rw [List.cons_append, find_directory, find_directory, Option.bind_assoc]
          exact Option.bind_congr fun content _ => ih content

/-- Every level takes a part of the whole. -/
theorem length_lt_sizeOf {root found : Content} {loc : List String}
    (hfind : root.find loc = some found) : loc.length < sizeOf root := by
  induction loc generalizing root with
  | nil => cases root <;> simp
  | cons name rest ih =>
      cases root with
      | file | symlink => cases hfind
      | directory entries =>
          obtain ⟨content, hlookup, hfound⟩ := Option.bind_eq_some_iff.mp hfind
          obtain ⟨before, after, hentries, _⟩ := List.lookup_eq_some_iff.mp hlookup
          have hmem : (name, content) ∈ entries := by rw [hentries]; simp
          have hsize : sizeOf content < sizeOf (directory entries) := by
            have hentry := List.sizeOf_lt_of_mem hmem
            simp only [Prod.mk.sizeOf_spec, directory.sizeOf_spec] at hentry ⊢
            omega
          have hrest := ih hfound
          simp only [List.length_cons]
          omega

/-- Erasing by one component. -/
theorem find_erase_cons (entries : List (String × Content)) (name first : String)
    (rest inner : List String) :
    ((directory entries).erase (name :: rest)).find (first :: inner) =
      if first = name then
        if rest = [] then none
        else (entries.lookup name).bind fun content => (content.erase rest).find inner
      else (directory entries).find (first :: inner) := by
  rw [erase, find_directory, find_directory]
  by_cases hfirst : first = name <;> by_cases hrest : rest = []
  · simp only [hfirst, hrest, if_true, lookup_filter_ne, Option.bind_none]
  · simp only [hfirst, hrest, if_true, if_false, lookup_map_value, Option.bind_map]
    rfl
  · simp only [hfirst, hrest, if_true, if_false, lookup_filter_ne]
  · simp only [hfirst, hrest, if_false, lookup_map_value]

/-- An erased location and all below it are empty afterwards. -/
theorem find_erase_of_prefix {loc other : List String} (hloc : loc ≠ []) (root : Content)
    (hbelow : loc <+: other) : (root.erase loc).find other = none := by
  induction loc generalizing root other with
  | nil => exact absurd rfl hloc
  | cons name rest ih =>
      obtain ⟨inner, rfl⟩ := hbelow
      cases root with
      | file | symlink => rfl
      | directory entries =>
          rw [List.cons_append, find_erase_cons, if_pos rfl]
          split
          next => rfl
          next hrest =>
            rw [Option.bind_eq_none_iff]
            exact fun content _ => ih hrest content (List.prefix_append rest inner)

/-- What neither lies there nor leads there is the same afterwards. -/
theorem find_erase_of_apart {loc other : List String} (root : Content) (hbelow : ¬ loc <+: other)
    (habove : ¬ other <+: loc) : (root.erase loc).find other = root.find other := by
  induction loc generalizing root other with
  | nil => exact absurd List.nil_prefix hbelow
  | cons name rest ih =>
      cases root with
      | file | symlink => rfl
      | directory entries =>
          cases other with
          | nil => exact absurd List.nil_prefix habove
          | cons first inner =>
              rw [find_erase_cons]
              by_cases hfirst : first = name
              · subst hfirst
                rw [List.prefix_cons_inj] at hbelow habove
                have hrest : rest ≠ [] := fun hrest => hbelow (hrest ▸ List.nil_prefix)
                rw [if_pos rfl, if_neg hrest, find_directory]
                exact Option.bind_congr fun content _ => ih content hbelow habove
              · rw [if_neg hfirst]

/-- What lies elsewhere is of the same kind afterwards. -/
theorem view_erase_of_not_prefix {loc other : List String} (root : Content)
    (hbelow : ¬ loc <+: other) : (root.erase loc).view other = root.view other := by
  induction loc generalizing root other with
  | nil => exact absurd List.nil_prefix hbelow
  | cons name rest ih =>
      cases root with
      | file | symlink => rfl
      | directory entries =>
          cases other with
          | nil => rfl
          | cons first inner =>
              unfold view
              rw [find_erase_cons]
              by_cases hfirst : first = name
              · subst hfirst
                rw [List.prefix_cons_inj] at hbelow
                have hrest : rest ≠ [] := fun hrest => hbelow (hrest ▸ List.nil_prefix)
                rw [if_pos rfl, if_neg hrest, find_directory, Option.map_bind, Option.map_bind]
                exact Option.bind_congr fun content _ => ih content hbelow
              · rw [if_neg hfirst]

/-- Something only disappears. -/
theorem shrinks_erase (root : Content) {loc : List String} (hloc : loc ≠ []) :
    Shrinks root.view (root.erase loc).view := by
  intro other kind hkind
  by_cases hbelow : loc <+: other
  · rw [view, find_erase_of_prefix hloc root hbelow] at hkind
    cases hkind
  · rwa [← view_erase_of_not_prefix root hbelow]

/-- The kernel has no entry without a name, and none whose name has a slash. -/
def Named (root : Content) : Prop :=
  ∀ loc name, (root.view (loc ++ [name])).isSome → name ≠ "" ∧ '/' ∉ name.toList

theorem named_file : Named file := by
  intro loc name hsome
  cases loc <;> cases hsome

theorem named_symlink (target : String) : Named (symlink target) := by
  intro loc name hsome
  cases loc <;> cases hsome

theorem named_directory {entries : List (String × Content)}
    (hentries : ∀ entry ∈ entries, (entry.1 ≠ "" ∧ '/' ∉ entry.1.toList) ∧ entry.2.Named) :
    Named (directory entries) := by
  intro loc name hsome
  rw [view, Option.isSome_map] at hsome
  obtain ⟨found, hfound⟩ := Option.isSome_iff_exists.mp hsome
  cases loc with
  | nil =>
      obtain ⟨content, hlookup, _⟩ := Option.bind_eq_some_iff.mp hfound
      obtain ⟨before, after, hsplit, _⟩ := List.lookup_eq_some_iff.mp hlookup
      exact (hentries (name, content) (by rw [hsplit]; simp)).1
  | cons first rest =>
      obtain ⟨content, hlookup, hinside⟩ := Option.bind_eq_some_iff.mp hfound
      obtain ⟨before, after, hsplit, _⟩ := List.lookup_eq_some_iff.mp hlookup
      refine (hentries (first, content) (by rw [hsplit]; simp)).2 rest name ?_
      rw [view, Option.isSome_map]
      exact Option.isSome_iff_exists.mpr ⟨found, hinside⟩

end Content

/-- A file system, and the directory that relative paths start from. -/
structure Disk where
  root : Content
  cwd : List String
  named : root.Named

namespace Disk

def view (disk : Disk) : View := disk.root.view

/-- Where the path leads; the empty one leads nowhere. -/
def resolve (disk : Disk) (path : String) : Option (List String) :=
  if path = "" then none
  else Resolution.resolve disk.view disk.cwd (path.toList.head? = some '/') (components path)

/-- The same without following a link at the end. -/
def locate (disk : Disk) (path : String) : Option (List String) :=
  if path = "" then none
  else Resolution.locate disk.view disk.cwd (path.toList.head? = some '/') (components path)

/-- The root cannot be deleted. -/
def erase (loc : List String) (disk : Disk) : Disk :=
  if hloc : loc = [] then disk
  else
    { disk with
      root := disk.root.erase loc
      named := fun other name hsome =>
        disk.named other name ((disk.root.shrinks_erase hloc).isSome hsome) }

section Calls

variable (fails : Call → Bool)

/-- The names that `readdir` hands out. -/
def opendir (path : String) (disk : Disk) : Option (List String) :=
  if fails (.opendir path) then none
  else (disk.resolve path).bind fun loc =>
    match disk.root.find loc with
    | some (.directory entries) => some ("." :: ".." :: entries.map (·.1))
    | _ => none

def lstat (path : String) (disk : Disk) : Option Kind :=
  if fails (.lstat path) then none else (disk.locate path).bind disk.view

/-- A system call that deletes what is at the path, if it is of a kind that it deletes. -/
def delete (call : Call) (deletes : Content → Bool) (disk : Disk) : Disk :=
  match disk.locate call.path with
  | none => disk
  | some loc =>
      if fails call = false ∧ (disk.root.find loc).any deletes then disk.erase loc else disk

def unlink (path : String) (disk : Disk) : Disk :=
  disk.delete fails (.unlink path) fun content => content.kind != .directory

/-- `rmdir` deletes no directory that still has an entry. -/
def rmdir (path : String) (disk : Disk) : Disk :=
  disk.delete fails (.rmdir path) Content.isEmptyDirectory

/-- `std::remove` is `unlink` or `rmdir`, by what is there. -/
def remove (path : String) (disk : Disk) : Disk :=
  disk.delete fails (.remove path) fun content =>
    content.kind != .directory || content.isEmptyDirectory

/-- The body of the loop of `remove_dir`, for one entry that `readdir` has handed out. -/
def removeEntry (removeDir : String → Disk → Option Disk) (path : String) (disk : Disk)
    (name : String) : Option Disk :=
  if name.toList.head? = some '.' then some disk
  else
    let full := path ++ ("/" ++ name)
    match disk.lstat fails full with
    | none => some disk
    | some (.symlink _) => some (disk.unlink fails full)
    | some .directory => removeDir full disk
    | some .file => some (disk.remove fails full)

/-- `none`: the fuel did not suffice. -/
def removeDir : Nat → String → Disk → Option Disk
  | 0, _, _ => none
  | fuel + 1, path, disk =>
      match disk.opendir fails path with
      | none => some disk
      | some names =>
          (names.foldlM (removeEntry fails (removeDir fuel) path) disk).map (rmdir fails path)

end Calls

/-- Only what lies at the location or below it has been deleted. -/
structure ContainedIn (loc : List String) (before after : Disk) : Prop where
  cwd : after.cwd = before.cwd
  deletes : Shrinks before.view after.view
  elsewhere : ∀ other, ¬ loc <+: other → after.view other = before.view other
  /-- What hangs on another branch is the same with all its contents. -/
  apart : ∀ other, ¬ loc <+: other → ¬ other <+: loc →
    after.root.find other = before.root.find other

namespace ContainedIn

variable {loc inner : List String} {before after last : Disk}

theorem refl (loc : List String) (disk : Disk) : ContainedIn loc disk disk where
  cwd := rfl
  deletes := Shrinks.refl disk.view
  elsewhere _ _ := rfl
  apart _ _ _ := rfl

theorem trans (hfirst : ContainedIn loc before after) (hsecond : ContainedIn loc after last) :
    ContainedIn loc before last where
  cwd := hsecond.cwd.trans hfirst.cwd
  deletes := hfirst.deletes.trans hsecond.deletes
  elsewhere other hbelow := (hsecond.elsewhere other hbelow).trans (hfirst.elsewhere other hbelow)
  apart other hbelow habove :=
    (hsecond.apart other hbelow habove).trans (hfirst.apart other hbelow habove)

/-- What is contained further down is contained. -/
theorem mono (hinner : loc <+: inner) (hcontained : ContainedIn inner before after) :
    ContainedIn loc before after where
  cwd := hcontained.cwd
  deletes := hcontained.deletes
  elsewhere other hbelow := hcontained.elsewhere other fun hinside => hbelow (hinner.trans hinside)
  apart other hbelow habove := by
    apply hcontained.apart other fun hinside => hbelow (hinner.trans hinside)
    intro hon
    rcases List.prefix_or_prefix_of_prefix hon hinner with hfirst | hsecond
    · exact habove hfirst
    · exact hbelow hsecond

theorem erase (loc : List String) (disk : Disk) : ContainedIn loc disk (disk.erase loc) := by
  unfold Disk.erase
  split
  next => exact refl loc disk
  next hloc =>
    exact ⟨rfl, disk.root.shrinks_erase hloc,
      fun _ hbelow => disk.root.view_erase_of_not_prefix hbelow,
      fun _ hbelow habove => disk.root.find_erase_of_apart hbelow habove⟩

end ContainedIn

/-- If the path leads anywhere, then to that location. -/
structure LeadsTo (disk : Disk) (path : String) (loc : List String) : Prop where
  locate : ∀ found, disk.locate path = some found → found = loc
  resolve : ∀ found, disk.resolve path = some found → found = loc

section Paths

variable {disk later : Disk} {path name : String} {loc : List String}

theorem resolve_mono (hcontained : ContainedIn loc disk later) {found : List String}
    (hresolve : later.resolve path = some found) : disk.resolve path = some found := by
  unfold resolve at hresolve ⊢
  split at hresolve
  next => cases hresolve
  next hpath =>
    rw [if_neg hpath]
    rw [hcontained.cwd] at hresolve
    exact hcontained.deletes.resolve hresolve

theorem locate_mono (hcontained : ContainedIn loc disk later) {found : List String}
    (hlocate : later.locate path = some found) : disk.locate path = some found := by
  unfold locate at hlocate ⊢
  split at hlocate
  next => cases hlocate
  next hpath =>
    rw [if_neg hpath]
    rw [hcontained.cwd] at hlocate
    exact hcontained.deletes.locate hlocate

/-- Deletions do not redirect a path. -/
theorem LeadsTo.mono {other : List String} (hleads : disk.LeadsTo path loc)
    (hcontained : ContainedIn other disk later) : later.LeadsTo path loc where
  locate found hlocate := hleads.locate found (locate_mono hcontained hlocate)
  resolve found hresolve := hleads.resolve found (resolve_mono hcontained hresolve)

/-- A directory is found by its path whether or not links are followed at the end. -/
theorem resolve_of_locate (hlocate : disk.locate path = some loc)
    (hdirectory : disk.view loc = some .directory) : disk.resolve path = some loc := by
  unfold locate at hlocate
  unfold resolve
  split at hlocate
  next => cases hlocate
  next hpath =>
    rw [if_neg hpath]
    exact Resolution.resolve_of_locate hlocate hdirectory

theorem LeadsTo.of_directory (hlocate : ∀ found, disk.locate path = some found → found = loc)
    (hfound : disk.locate path = some loc) (hdirectory : disk.view loc = some .directory) :
    disk.LeadsTo path loc where
  locate := hlocate
  resolve found hresolve := by
    rw [resolve_of_locate hfound hdirectory] at hresolve
    exact (Option.some.inj hresolve).symm

theorem leadsTo_of_locate (hlocate : disk.locate path = some loc)
    (hdirectory : disk.view loc = some .directory) : disk.LeadsTo path loc := by
  refine .of_directory (fun found hfound => ?_) hlocate hdirectory
  rw [hlocate] at hfound
  exact (Option.some.inj hfound).symm

/-- The path of an entry starts where the path of its directory starts. -/
theorem head?_entry (hpath : path ≠ "") :
    (path ++ ("/" ++ name)).toList.head? = path.toList.head? := by
  rw [String.toList_append, List.head?_append_of_ne_nil]
  exact fun hempty => hpath (String.toList_injective hempty)

/-- The path of an entry leads to that entry. -/
theorem LeadsTo.entry (hleads : disk.LeadsTo path loc) (hpath : path ≠ "") (hname : IsName name)
    (hup : name ≠ "..") {found : List String}
    (hfound : disk.locate (path ++ ("/" ++ name)) = some found) : found = loc ++ [name] := by
  unfold Disk.locate at hfound
  split at hfound
  next => cases hfound
  next =>
    rw [components_slash, hname.components_eq, locate_append hup, head?_entry hpath] at hfound
    obtain ⟨dir, hdir, hfound⟩ := Option.bind_eq_some_iff.mp hfound
    rw [Option.ite_none_right_eq_some] at hfound
    obtain rfl := hleads.resolve dir (by rw [Disk.resolve, if_neg hpath]; exact hdir)
    exact (Option.some.inj hfound.2).symm

end Paths

section RemoveDir

variable {fails : Call → Bool} {disk : Disk} {path : String} {loc : List String}

theorem delete_containedIn {call : Call} {deletes : Content → Bool}
    (hleads : ∀ found, disk.locate call.path = some found → found = loc) :
    ContainedIn loc disk (disk.delete fails call deletes) := by
  unfold delete
  split
  next => exact .refl loc disk
  next found hfound =>
    split
    · rw [hleads found hfound]
      exact .erase loc disk
    · exact .refl loc disk

/-- Nothing lies as far below the location as that. -/
def DepthBelow (disk : Disk) (loc : List String) (depth : Nat) : Prop :=
  ∀ inner, (disk.view (loc ++ inner)).isSome → inner.length < depth

/-- What `readdir` finds besides `.` and `..` are entries of the directory. -/
theorem opendir_some {names : List String} (hopen : disk.opendir fails path = some names) :
    path ≠ "" ∧ ∀ name ∈ names, name = "." ∨ name = ".." ∨ name ≠ "" ∧ '/' ∉ name.toList := by
  rw [opendir, Option.ite_none_left_eq_some] at hopen
  obtain ⟨found, hfound, hnames⟩ := Option.bind_eq_some_iff.mp hopen.2
  constructor
  · rintro rfl
    cases hfound
  · intro name hname
    split at hnames
    next entries hentries =>
      obtain rfl := Option.some.inj hnames
      rcases List.mem_cons.mp hname with hself | hname
      · exact Or.inl hself
      rcases List.mem_cons.mp hname with hup | hname
      · exact Or.inr (Or.inl hup)
      refine Or.inr (Or.inr (disk.named found name ?_))
      obtain ⟨entry, hentry, rfl⟩ := List.mem_map.mp hname
      obtain ⟨content, hlookup⟩ := Option.isSome_iff_exists.mp
        (List.lookup_isSome_iff.mpr ⟨entry, hentry, beq_self_eq_true _⟩)
      rw [Content.view, Content.find_append, hentries, Option.bind_some, Content.find_directory,
        hlookup]
      rfl
    next => cases hnames

theorem lstat_some {kind : Kind} (hlstat : disk.lstat fails path = some kind) :
    ∃ found, disk.locate path = some found ∧ disk.view found = some kind := by
  rw [lstat, Option.ite_none_left_eq_some] at hlstat
  exact Option.bind_eq_some_iff.mp hlstat.2

theorem removeEntry_containedIn {removeDir : String → Disk → Option Disk} {name : String}
    (hleads : disk.LeadsTo path loc) (hpath : path ≠ "")
    (hname : name = "." ∨ name = ".." ∨ name ≠ "" ∧ '/' ∉ name.toList)
    (hinside : ∀ full, disk.LeadsTo full (loc ++ [name]) →
      (disk.view (loc ++ [name])).isSome →
      ∃ after, removeDir full disk = some after ∧ ContainedIn (loc ++ [name]) disk after) :
    ∃ after, disk.removeEntry fails removeDir path name = some after ∧
      ContainedIn loc disk after := by
  unfold removeEntry
  split
  next => exact ⟨disk, rfl, .refl loc disk⟩
  next hdot =>
    have hself : name ≠ "." := fun hself => hdot (by rw [hself]; rfl)
    have hup : name ≠ ".." := fun hup => hdot (by rw [hup]; rfl)
    have hproper := (hname.resolve_left hself).resolve_left hup
    have hentry : ∀ found, disk.locate (path ++ ("/" ++ name)) = some found →
        found = loc ++ [name] :=
      fun found => hleads.entry hpath ⟨hproper.2, hproper.1, hself⟩ hup
    have hbelow : loc <+: loc ++ [name] := List.prefix_append loc [name]
    dsimp only
    split
    next => exact ⟨disk, rfl, .refl loc disk⟩
    next => exact ⟨_, rfl, (delete_containedIn hentry).mono hbelow⟩
    next hlstat =>
      obtain ⟨found, hfound, hdirectory⟩ := lstat_some hlstat
      obtain rfl := hentry found hfound
      obtain ⟨after, hafter, hcontained⟩ :=
        hinside _ (.of_directory hentry hfound hdirectory) (by rw [hdirectory]; rfl)
      exact ⟨after, hafter, hcontained.mono hbelow⟩
    next => exact ⟨_, rfl, (delete_containedIn hentry).mono hbelow⟩

/-- With fuel for every level below, the call ends, and nothing outside has been deleted. -/
theorem removeDir_containedIn {fuel : Nat} (hleads : disk.LeadsTo path loc)
    (hexists : (disk.view loc).isSome) (hdepth : disk.DepthBelow loc fuel) :
    ∃ after, disk.removeDir fails fuel path = some after ∧ ContainedIn loc disk after := by
  induction fuel generalizing disk path loc with
  | zero => exact absurd (hdepth [] (by rwa [List.append_nil])) (Nat.not_lt_zero 0)
  | succ fuel ih =>
      rw [removeDir]
      cases hopen : disk.opendir fails path with
      | none => exact ⟨disk, rfl, .refl loc disk⟩
      | some names =>
          obtain ⟨hpath, hnames⟩ := opendir_some hopen
          have hloop : ∃ emptied,
              names.foldlM (removeEntry fails (removeDir fails fuel) path) disk = some emptied ∧
                ContainedIn loc disk emptied := by
            refine foldlM_total (ContainedIn loc disk) (fun later name hname hlater => ?_)
              (.refl loc disk)
            have hentry : ∃ next, later.removeEntry fails (removeDir fails fuel) path name =
                some next ∧ ContainedIn loc later next := by
              refine removeEntry_containedIn (hleads.mono hlater) hpath (hnames name hname)
                fun full hfull hfound => ih hfull hfound fun inner hinner => ?_
              rw [List.append_assoc] at hinner
              have hless := hdepth _ (hlater.deletes.isSome hinner)
              simpa using hless
            obtain ⟨next, hnext, hcontained⟩ := hentry
            exact ⟨next, hnext, hlater.trans hcontained⟩
          obtain ⟨emptied, hemptied, hinside⟩ := hloop
          dsimp only
          rw [hemptied]
          exact ⟨_, rfl, hinside.trans (delete_containedIn (hleads.mono hinside).locate)⟩

theorem removeEntry_mono {removeDir removeDir' : String → Disk → Option Disk} {name : String}
    {next : Disk}
    (hinside : ∀ full disk after, removeDir full disk = some after →
      removeDir' full disk = some after)
    (hnext : disk.removeEntry fails removeDir path name = some next) :
    disk.removeEntry fails removeDir' path name = some next := by
  unfold removeEntry at hnext ⊢
  split at hnext
  next hdot => rwa [if_pos hdot]
  next hdot =>
    rw [if_neg hdot]
    dsimp only at hnext ⊢
    split at hnext
    next => exact hnext
    next => exact hnext
    next => exact hinside _ _ _ hnext
    next => exact hnext

/-- More fuel does not change what the call does. -/
theorem removeDir_mono {fuel more : Nat} (hmore : fuel ≤ more) {after : Disk}
    (hafter : disk.removeDir fails fuel path = some after) :
    disk.removeDir fails more path = some after := by
  induction fuel generalizing disk path after more with
  | zero => cases hafter
  | succ fuel ih =>
      obtain ⟨more, rfl⟩ := Nat.exists_eq_add_of_le' hmore
      rw [← Nat.add_assoc, removeDir]
      rw [removeDir] at hafter
      cases hopen : disk.opendir fails path with
      | none => rwa [hopen] at hafter
      | some names =>
          rw [hopen] at hafter
          obtain ⟨emptied, hemptied, hlast⟩ := Option.map_eq_some_iff.mp hafter
          have hloop : names.foldlM (removeEntry fails (removeDir fails (more + fuel)) path) disk =
              some emptied := by
            refine foldlM_mono (fun state name next => ?_) hemptied
            exact removeEntry_mono fun full later after => ih (Nat.le_add_left fuel more)
          dsimp only
          rw [hloop, ← hlast]
          rfl

theorem exists_depthBelow (disk : Disk) (loc : List String) :
    ∃ depth, disk.DepthBelow loc depth := by
  refine ⟨sizeOf disk.root, fun inner hinner => ?_⟩
  rw [view, Content.view, Option.isSome_map] at hinner
  obtain ⟨found, hfound⟩ := Option.isSome_iff_exists.mp hinner
  have hless := Content.length_lt_sizeOf hfound
  rw [List.length_append] at hless
  omega

/-- Some fuel suffices. -/
theorem removeDir_ends (fails : Call → Bool) (hleads : disk.LeadsTo path loc)
    (hexists : (disk.view loc).isSome) :
    ∃ after fuel, ContainedIn loc disk after ∧
      ∀ more, fuel ≤ more → disk.removeDir fails more path = some after := by
  obtain ⟨fuel, hdepth⟩ := disk.exists_depthBelow loc
  have hends : ∃ after, disk.removeDir fails fuel path = some after ∧
      ContainedIn loc disk after := removeDir_containedIn hleads hexists hdepth
  obtain ⟨after, hafter, hcontained⟩ := hends
  exact ⟨after, fuel, hcontained, fun more hmore => removeDir_mono hmore hafter⟩

/-- On a real directory, whatever calls fail, `remove_dir` ends, and it has deleted only what lies
at the location of the directory or below it, where no link leads. -/
theorem removeDir_contained (fails : Call → Bool) (disk : Disk) (path : String) (loc : List String)
    (hlocate : disk.locate path = some loc) (hdirectory : disk.view loc = some .directory) :
    ∃ after fuel, ContainedIn loc disk after ∧
      ∀ more, fuel ≤ more → disk.removeDir fails more path = some after :=
  removeDir_ends fails (leadsTo_of_locate hlocate hdirectory) (by rw [hdirectory]; rfl)

end RemoveDir

end Disk

/-- A slice with links to an ancestor and to the outside. -/
def entangled : Content :=
  .directory [("data", .directory [("a", .directory [("up", .symlink "/data"),
    ("out", .symlink "../../etc"), (".hidden", .file), ("a.db3", .file)])]),
    ("etc", .directory [("passwd", .file)])]

theorem named_entangled : entangled.Named := by
  refine Content.named_directory (List.forall_mem_cons.mpr
    ⟨⟨by decide, ?_⟩, List.forall_mem_singleton.mpr ⟨by decide, ?_⟩⟩)
  · refine Content.named_directory (List.forall_mem_singleton.mpr
      ⟨by decide, Content.named_directory ?_⟩)
    simp [Content.named_file, Content.named_symlink]
  · exact Content.named_directory (List.forall_mem_singleton.mpr ⟨by decide, Content.named_file⟩)

theorem removeDir_contained_entangled :
    ∃ after fuel, Disk.ContainedIn ["data", "a"] ⟨entangled, [], named_entangled⟩ after ∧
      ∀ more, fuel ≤ more → Disk.removeDir (fun _ => false) more "/data/a"
        ⟨entangled, [], named_entangled⟩ = some after :=
  Disk.removeDir_contained (fun _ => false) ⟨entangled, [], named_entangled⟩ "/data/a"
    ["data", "a"] (by decide +kernel) (by decide +kernel)

end AcflyRos.BagLogd

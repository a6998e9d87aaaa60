import AcflyRos.Foundation.Paths

/-! # Deleting a directory

`remove_dir` of `bag_logd_node.cpp` on the tree that hangs below a directory, and the
check of the path that all deletions start from. Every call of the file system may
fail, and what is deleted is read off the calls.
-/

namespace AcflyRos.BagLogd

open AcflyRos.Paths

/-- What `lstat` finds, and what lies below it. -/
inductive Content where
  | file
  | symlink (target : String)
  | directory (entries : List (String × Content))

inductive Call where
  | removeDir (path : String)
  | opendir (path : String)
  | lstat (path : String)
  | unlink (path : String)
  | remove (path : String)
  | rmdir (path : String)
  deriving DecidableEq, Repr

def Call.path : Call → String
  | .removeDir path | .opendir path | .lstat path | .unlink path | .remove path | .rmdir path =>
      path

/-! ## `remove_dir` -/

section RemoveDir

variable (fails : Call → Bool)

mutual

/-- The calls that delete something, and what is left. A link is unlinked, a directory goes
through `remove_dir`, and anything else is removed. -/
def removeFound (path : String) : Content → List Call × Option Content
  | .symlink target =>
      ([.unlink path], if fails (.unlink path) then some (.symlink target) else none)
  | .directory entries =>
      if fails (.opendir path) then ([.removeDir path], some (.directory entries))
      else
        let left := removeEntries path entries
        (.removeDir path :: (left.1 ++ [.rmdir path]),
          -- A directory that is not empty stays.
          if left.2.isEmpty && !fails (.rmdir path) then none else some (.directory left.2))
  | .file => ([.remove path], if fails (.remove path) then some .file else none)
termination_by structural content => content

/-- The loop over the entries. -/
def removeEntries (path : String) :
    List (String × Content) → List Call × List (String × Content)
  | [] => ([], [])
  | entry :: rest =>
      let here := removeEntry path entry
      let later := removeEntries path rest
      (here.1 ++ later.1, here.2.toList ++ later.2)
termination_by structural entries => entries

/-- Entries that begin with a dot are skipped, and so is what `lstat` fails for. -/
def removeEntry (path : String) : String × Content → List Call × Option (String × Content)
  | (name, content) =>
      let full := path ++ ("/" ++ name)
      if name.toList.head? = some '.' then ([], some (name, content))
      else if fails (.lstat full) then ([], some (name, content))
      else
        let here := removeFound full content
        (here.1, here.2.map (name, ·))
termination_by structural entry => entry

end

def removeDir (path : String) (entries : List (String × Content)) :
    List Call × Option Content :=
  removeFound fails path (.directory entries)

end RemoveDir

example : removeDir (fun _ => false) "/data/bags/a" [("b", .symlink "/"), (".c", .file)] =
    ([.removeDir "/data/bags/a", .unlink "/data/bags/a/b", .rmdir "/data/bags/a"],
      some (.directory [(".c", .file)])) := rfl

/-- Something is found below by descending through directories, never through a link. -/
inductive Holds : Content → List String → Content → Prop where
  | here (content : Content) : Holds content [] content
  | inside {entries : List (String × Content)} {name : String} {content found : Content}
      {names : List String} (hmem : (name, content) ∈ entries)
      (hholds : Holds content names found) : Holds (.directory entries) (name :: names) found

/-- The call fits the kind of what it deletes. -/
def Call.Suits : Call → Content → Prop
  | .unlink _, .symlink _ => True
  | .remove _, .file => True
  | .removeDir _, .directory _ => True
  | .rmdir _, .directory _ => True
  | _, _ => False

/-- The call deletes something that is found below. -/
def Call.Finds (path : String) (content : Content) (call : Call) : Prop :=
  ∃ names found, Holds content names found ∧ call.path = below path names ∧ call.Suits found

theorem Call.Finds.here {path : String} {content : Content} {call : Call}
    (hpath : call.path = path) (hsuits : call.Suits content) : call.Finds path content :=
  ⟨[], content, .here content, hpath, hsuits⟩

theorem Call.Finds.inside {path name : String} {content : Content} {call : Call}
    {entries : List (String × Content)} (hmem : (name, content) ∈ entries)
    (hfinds : call.Finds (path ++ ("/" ++ name)) content) :
    call.Finds path (.directory entries) := by
  obtain ⟨names, found, hholds, hpath, hsuits⟩ := hfinds
  exact ⟨name :: names, found, .inside hmem hholds, hpath, hsuits⟩

theorem Call.Finds.atOrBelow {path : String} {content : Content} {call : Call}
    (hfinds : call.Finds path content) : AtOrBelow call.path path := by
  obtain ⟨names, _, _, hpath, _⟩ := hfinds
  rw [hpath]
  exact atOrBelow_below path names

section Calls

variable {fails : Call → Bool} {path : String}

mutual

theorem removeFound_finds {call : Call} {path : String} :
    ∀ {content : Content}, call ∈ (removeFound fails path content).1 → call.Finds path content
  | .symlink target, hcall => by
      simp only [removeFound, List.mem_singleton] at hcall
      subst hcall
      exact .here rfl trivial
  | .file, hcall => by
      simp only [removeFound, List.mem_singleton] at hcall
      subst hcall
      exact .here rfl trivial
  | .directory entries, hcall => by
      simp only [removeFound] at hcall
      split at hcall
      next =>
        rw [List.mem_singleton] at hcall
        subst hcall
        exact .here rfl trivial
      next =>
        simp only [List.mem_cons, List.mem_append, List.not_mem_nil, or_false] at hcall
        rcases hcall with rfl | hinside | rfl
        · exact .here rfl trivial
        · obtain ⟨name, content, hmem, hfinds⟩ := removeEntries_finds hinside
          exact .inside hmem hfinds
        · exact .here rfl trivial

theorem removeEntries_finds {call : Call} {path : String} :
    ∀ {entries : List (String × Content)}, call ∈ (removeEntries fails path entries).1 →
      ∃ name content, (name, content) ∈ entries ∧ call.Finds (path ++ ("/" ++ name)) content
  | [], hcall => by simp [removeEntries] at hcall
  | (name, content) :: rest, hcall => by
      simp only [removeEntries, List.mem_append] at hcall
      rcases hcall with hhere | hlater
      · exact ⟨name, content, List.mem_cons_self, removeEntry_finds hhere⟩
      · obtain ⟨name, content, hmem, hfinds⟩ := removeEntries_finds hlater
        exact ⟨name, content, List.mem_cons_of_mem _ hmem, hfinds⟩

theorem removeEntry_finds {call : Call} {path : String} :
    ∀ {name : String} {content : Content}, call ∈ (removeEntry fails path (name, content)).1 →
      call.Finds (path ++ ("/" ++ name)) content
  | name, content, hcall => by
      simp only [removeEntry] at hcall
      split at hcall
      next => cases hcall
      next =>
        split at hcall
        next => cases hcall
        next => exact removeFound_finds hcall

end

/-- Whatever `remove_dir` deletes is at the path it was given or found below it. -/
theorem removeDir_finds {call : Call} {entries : List (String × Content)}
    (hcall : call ∈ (removeDir fails path entries).1) : call.Finds path (.directory entries) :=
  removeFound_finds hcall

end Calls

/-! ## The storage path -/

def denylist : List String :=
  ["/", "/data", "/home", "/etc", "/usr", "/var", "/tmp", "/boot", "/root", "/opt", "/bin",
    "/sbin", "/lib", "/lib64", "/proc", "/sys", "/dev", "/run", "/media", "/mnt", "/srv"]

/-- The path in its normal form, or the reason for refusing it. -/
def validateStoragePath (path : String) : Except String String :=
  if path = "" then .error "storage_path is empty"
  else if path.toList.head? ≠ some '/' then
    .error ("storage_path must be absolute: " ++ path)
  else
    let parts := components path
    if ".." ∈ parts then .error ("storage_path must not contain '..': " ++ path)
    else if parts = [] then .error "storage_path is root '/'"
    else if parts.length < 2 then
      .error ("storage_path too shallow (need at least /x/y): " ++ path)
    else
      let normalized := String.join (parts.map ("/" ++ ·))
      if normalized ∈ denylist then
        .error ("storage_path refuses system directory: " ++ normalized)
      else .ok normalized

example : validateStoragePath "/home//pilot/./" = .ok "/home/pilot" := by decide +kernel

end AcflyRos.BagLogd

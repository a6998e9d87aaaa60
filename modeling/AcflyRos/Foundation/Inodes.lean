import AcflyRos.Foundation.Paths
import Mathlib.Data.List.Basic

/-! # File systems

A file system is a table of inodes, the first of which is the root directory. Absolute
paths are walked component by component, and symbolic links are followed, as many as the
kernel puts up with. Directories list themselves and their parents, so that `.` and `..`
are names like others.
-/

namespace AcflyRos.Inodes

open AcflyRos.Paths

inductive Inode where
  | directory (entries : List (String × Nat))
  | symlink (target : String)
  | other
  deriving DecidableEq, Repr

def Inode.isDirectory : Inode → Bool
  | .directory _ => true
  | _ => false

structure FileSystem where
  inodes : List Inode
  root : inodes.head?.any Inode.isDirectory = true

/-- What `mkdir` returns: success, `EEXIST` or another error. -/
inductive Outcome where
  | made
  | exists
  | failed
  deriving DecidableEq, Repr

namespace FileSystem

def lookup (fs : FileSystem) (dir : Nat) (name : String) : Option Nat :=
  match fs.inodes[dir]? with
  | some (.directory entries) => entries.lookup name
  | _ => none

/-- Walks down from a directory, up to the first link. -/
def walk (fs : FileSystem) (onLink : Nat → String → List String → Option Nat) :
    Nat → List String → Option Nat
  | dir, [] => some dir
  | dir, name :: rest =>
      match fs.lookup dir name with
      | none => none
      | some ino =>
          match fs.inodes[ino]? with
          | some (.symlink target) => onLink dir target rest
          | _ => walk fs onLink ino rest

/-- Walks down through so many links at most. -/
def resolveFrom (fs : FileSystem) : Nat → Nat → List String → Option Nat
  | 0 => fs.walk fun _ _ _ => none
  | links + 1 => fs.walk fun dir target rest =>
      fs.resolveFrom links (if target.toList.head? = some '/' then 0 else dir)
        (components target ++ rest)

/-- Linux follows 40 links. -/
def resolve (fs : FileSystem) (names : List String) : Option Nat := fs.resolveFrom 40 0 names

def stat (fs : FileSystem) (path : String) : Option Inode :=
  (fs.resolve (components path)).bind fun ino => fs.inodes[ino]?

/-- Something is at the path, and `S_ISDIR` of it holds. -/
def isDirectory (fs : FileSystem) (path : String) : Bool := (fs.stat path).any Inode.isDirectory

/-- An empty directory is made in a directory with those entries. -/
def addDirectory (fs : FileSystem) (dir : Nat) (entries : List (String × Nat)) (name : String) :
    FileSystem where
  inodes := fs.inodes.set dir (.directory (entries ++ [(name, fs.inodes.length)])) ++
    [.directory [(".", fs.inodes.length), ("..", dir)]]
  root := by
    have hroot := fs.root
    cases hinodes : fs.inodes with
    | nil => simp [hinodes] at hroot
    | cons first rest =>
        cases dir with
        | zero => simp [Inode.isDirectory]
        | succ dir => simpa [hinodes] using hroot

/-- The last component is not followed if it is a link. -/
def mkdir (refused : Bool) (path : String) (fs : FileSystem) : Outcome × FileSystem :=
  match (components path).getLast? with
  | none => (.exists, fs)
  | some name =>
      match fs.resolve (components path).dropLast with
      | none => (.failed, fs)
      | some dir =>
          match fs.inodes[dir]? with
          | some (.directory entries) =>
              if (entries.lookup name).isSome then (.exists, fs)
              else if refused then (.failed, fs)
              else (.made, fs.addDirectory dir entries name)
          | _ => (.failed, fs)

/-- A directory is made in one that lacks the name, or nothing changes. -/
theorem mkdir_cases (refused : Bool) (path : String) (fs : FileSystem) :
    ((fs.mkdir refused path).1 ≠ .made ∧ (fs.mkdir refused path).2 = fs) ∨
      ∃ name dir entries, (components path).getLast? = some name ∧
        fs.resolve (components path).dropLast = some dir ∧
        fs.inodes[dir]? = some (.directory entries) ∧ entries.lookup name = none ∧
        fs.mkdir refused path = (.made, fs.addDirectory dir entries name) := by
  unfold mkdir
  split
  next => simp
  next name hname =>
    split
    next => simp
    next dir hdir =>
      split
      next entries hentries =>
        by_cases htaken : (entries.lookup name).isSome
        · simp [htaken]
        · by_cases hrefused : refused = true
          · simp [htaken, hrefused]
          · refine Or.inr ⟨name, dir, entries, hname, hdir, hentries, ?_, ?_⟩
            · rwa [Option.not_isSome_iff_eq_none] at htaken
            · rw [if_neg htaken, if_neg hrefused]
      next => simp

theorem mkdir_of_not_made {refused : Bool} {path : String} {fs : FileSystem}
    (hmade : (fs.mkdir refused path).1 ≠ .made) : (fs.mkdir refused path).2 = fs := by
  rcases mkdir_cases refused path fs with hsame | ⟨name, dir, entries, _, _, _, _, hmkdir⟩
  · exact hsame.2
  · rw [hmkdir] at hmade
    exact absurd rfl hmade

/-! ## What lies on the way -/

theorem isDirectory_of_lookup {fs : FileSystem} {dir ino : Nat} {name : String}
    (hlookup : fs.lookup dir name = some ino) : fs.inodes[dir]?.any Inode.isDirectory = true := by
  unfold lookup at hlookup
  split at hlookup
  next entries hentries =>
    rw [hentries]
    rfl
  next => cases hlookup

theorem walk_append {fs : FileSystem} {onLink : Nat → String → List String → Option Nat}
    {dir found : Nat} {names inner : List String} (hinner : inner ≠ [])
    (hlink : ∀ {dir found : Nat} {target : String} {names : List String},
      onLink dir target (names ++ inner) = some found → ∃ middle,
        onLink dir target names = some middle ∧
          fs.inodes[middle]?.any Inode.isDirectory = true)
    (hwalk : fs.walk onLink dir (names ++ inner) = some found) :
    ∃ middle, fs.walk onLink dir names = some middle ∧
      fs.inodes[middle]?.any Inode.isDirectory = true := by
  induction names generalizing dir with
  | nil =>
      refine ⟨dir, rfl, ?_⟩
      cases inner with
      | nil => exact absurd rfl hinner
      | cons name inner =>
          rw [List.nil_append, walk] at hwalk
          cases hlookup : fs.lookup dir name with
          | none => simp [hlookup] at hwalk
          | some ino => exact isDirectory_of_lookup hlookup
  | cons name names ih =>
      rw [List.cons_append, walk] at hwalk
      rw [walk]
      cases hlookup : fs.lookup dir name with
      | none => simp [hlookup] at hwalk
      | some ino =>
          simp only [hlookup] at hwalk
          dsimp only
          split at hwalk
          next target htarget => exact hlink hwalk
          next hplain =>
            obtain ⟨middle, hmiddle, hdirectory⟩ := ih hwalk
            exact ⟨middle, hmiddle, hdirectory⟩

/-- Where a walk gets somewhere, a shorter one ends at a directory. -/
theorem resolveFrom_append {fs : FileSystem} {links dir found : Nat} {names inner : List String}
    (hinner : inner ≠ []) (hfound : fs.resolveFrom links dir (names ++ inner) = some found) :
    ∃ middle, fs.resolveFrom links dir names = some middle ∧
      fs.inodes[middle]?.any Inode.isDirectory = true := by
  induction links generalizing dir names found with
  | zero => exact walk_append hinner nofun hfound
  | succ links ih =>
      refine walk_append hinner (fun hlink => ?_) hfound
      rw [← List.append_assoc] at hlink
      exact ih hlink

theorem isDirectory_of_resolve {fs : FileSystem} {path : String} {ino : Nat}
    (hresolve : fs.resolve (components path) = some ino)
    (hdirectory : fs.inodes[ino]?.any Inode.isDirectory = true) : fs.isDirectory path = true := by
  unfold isDirectory stat
  rw [hresolve]
  exact hdirectory

/-- The ancestors of a directory are directories. -/
theorem isDirectory_of_atOrBelow {fs : FileSystem} {path dir : String}
    (hpath : fs.isDirectory path = true) (hdir : AtOrBelow path dir) :
    fs.isDirectory dir = true := by
  obtain ⟨inner, hinner⟩ := hdir
  by_cases hsame : inner = []
  · rw [hsame, List.append_nil] at hinner
    unfold isDirectory stat
    rw [hinner]
    exact hpath
  · have hfound : ∃ found, fs.resolve (components path) = some found := by
      apply Option.isSome_iff_exists.mp
      by_contra hnone
      rw [Option.not_isSome_iff_eq_none] at hnone
      simp [isDirectory, stat, hnone] at hpath
    obtain ⟨found, hfound⟩ := hfound
    rw [← hinner] at hfound
    obtain ⟨middle, hmiddle, hdirectory⟩ := resolveFrom_append hsame hfound
    exact isDirectory_of_resolve hmiddle hdirectory

/-! ## A new directory -/

/-- Nothing is in it yet. -/
theorem resolveFrom_addDirectory {fs : FileSystem} {links dir : Nat}
    {entries : List (String × Nat)} {name inner : String} {rest : List String}
    (hentries : fs.inodes[dir]? = some (.directory entries)) (hname : entries.lookup name = none)
    (hself : inner ≠ ".") (hparent : inner ≠ "..") :
    (fs.addDirectory dir entries name).resolveFrom links dir (name :: inner :: rest) = none := by
  have hdir : dir < fs.inodes.length := (List.getElem?_eq_some_iff.mp hentries).1
  have hlookup : (fs.addDirectory dir entries name).lookup dir name = some fs.inodes.length := by
    simp [lookup, addDirectory, List.getElem?_append, hdir, List.lookup_append, hname]
  have hempty : (fs.addDirectory dir entries name).lookup fs.inodes.length inner = none := by
    have hself' : (inner == ".") = false := beq_eq_false_iff_ne.mpr hself
    have hparent' : (inner == "..") = false := beq_eq_false_iff_ne.mpr hparent
    simp [lookup, addDirectory, List.lookup_cons, hself', hparent']
  have hnew : (fs.addDirectory dir entries name).inodes[fs.inodes.length]? =
      some (.directory [(".", fs.inodes.length), ("..", dir)]) := by
    simp [addDirectory]
  cases links with
  | zero => simp [resolveFrom, walk, hlookup, hempty, hnew]
  | succ links => simp [resolveFrom, walk, hlookup, hempty, hnew]

end FileSystem

end AcflyRos.Inodes

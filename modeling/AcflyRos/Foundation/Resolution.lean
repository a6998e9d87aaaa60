import AcflyRos.Foundation.Paths

/-! # Resolving paths while things disappear

Where a path leads is determined by what is at each location, a location being the list of
names by which one descends to it from the root, without following a link. When things only
disappear, a path still leads where it led before, or nowhere.
-/

namespace AcflyRos.Resolution

open AcflyRos.Paths

inductive Kind where
  | file
  | symlink (target : String)
  | directory
  deriving DecidableEq, Repr

/-- What is at each location. -/
abbrev View := List String → Option Kind

/-- Walks down from a directory, up to the first link. -/
def walk (view : View) (onLink : List String → String → List String → Option (List String)) :
    List String → List String → Option (List String)
  | here, [] => if (view here).isSome then some here else none
  | here, name :: rest =>
      if view here = some .directory then
        if name = ".." then walk view onLink here.dropLast rest
        else match view (here ++ [name]) with
        | none => none
        | some (.symlink target) => onLink here target rest
        | some _ => walk view onLink (here ++ [name]) rest
      else none

/-- Walks down through so many links at most. -/
def resolveFrom (view : View) : Nat → List String → List String → Option (List String)
  | 0 => walk view fun _ _ _ => none
  | links + 1 => walk view fun here target rest =>
      resolveFrom view links (if target.toList.head? = some '/' then [] else here)
        (components target ++ rest)

/-- Linux follows 40 links. -/
def resolve (view : View) (cwd : List String) (absolute : Bool) (names : List String) :
    Option (List String) :=
  resolveFrom view 40 (if absolute then [] else cwd) names

/-- The last component is not followed if it is a link. -/
def locate (view : View) (cwd : List String) (absolute : Bool) (names : List String) :
    Option (List String) :=
  match names.getLast? with
  | none => resolve view cwd absolute []
  | some name =>
      if name = ".." then resolve view cwd absolute names
      else (resolve view cwd absolute names.dropLast).bind fun dir =>
        if view dir = some .directory ∧ (view (dir ++ [name])).isSome then some (dir ++ [name])
        else none

/-- Whatever is there now was there before. -/
def Shrinks (before after : View) : Prop :=
  ∀ loc kind, after loc = some kind → before loc = some kind

namespace Shrinks

theorem refl (view : View) : Shrinks view view := fun _ _ hkind => hkind

theorem trans {first second third : View} (hfirst : Shrinks first second)
    (hsecond : Shrinks second third) : Shrinks first third :=
  fun loc kind hkind => hfirst loc kind (hsecond loc kind hkind)

variable {before after : View}

theorem isSome (hshrinks : Shrinks before after) {loc : List String}
    (hsome : (after loc).isSome) : (before loc).isSome := by
  obtain ⟨kind, hkind⟩ := Option.isSome_iff_exists.mp hsome
  rw [hshrinks loc kind hkind]
  rfl

theorem eq_none (hshrinks : Shrinks before after) {loc : List String}
    (hnone : before loc = none) : after loc = none := by
  rw [← Option.not_isSome_iff_eq_none] at hnone ⊢
  exact fun hsome => hnone (hshrinks.isSome hsome)

theorem walk {onLink onLink' : List String → String → List String → Option (List String)}
    (hshrinks : Shrinks before after)
    (hlink : ∀ here target rest found, onLink' here target rest = some found →
      onLink here target rest = some found)
    {here names found : List String}
    (hwalk : Resolution.walk after onLink' here names = some found) :
    Resolution.walk before onLink here names = some found := by
  induction names generalizing here with
  | nil =>
      rw [Resolution.walk, Option.ite_none_right_eq_some] at hwalk ⊢
      exact ⟨hshrinks.isSome hwalk.1, hwalk.2⟩
  | cons name rest ih =>
      rw [Resolution.walk, Option.ite_none_right_eq_some] at hwalk ⊢
      refine ⟨hshrinks here _ hwalk.1, ?_⟩
      obtain ⟨_, hwalk⟩ := hwalk
      split at hwalk
      next hup => rw [if_pos hup]; exact ih hwalk
      next hup =>
        rw [if_neg hup]
        cases hkind : after (here ++ [name]) with
        | none => simp only [hkind, reduceCtorEq] at hwalk
        | some kind =>
            rw [hkind] at hwalk
            rw [hshrinks _ _ hkind]
            cases kind with
            | symlink target => exact hlink _ _ _ _ hwalk
            | file | directory => exact ih hwalk

theorem resolveFrom (hshrinks : Shrinks before after) {links : Nat}
    {here names found : List String}
    (hresolve : Resolution.resolveFrom after links here names = some found) :
    Resolution.resolveFrom before links here names = some found := by
  induction links generalizing here names found with
  | zero => exact hshrinks.walk (fun _ _ _ _ hlink => hlink) hresolve
  | succ links ih => exact hshrinks.walk (fun _ _ _ _ hlink => ih hlink) hresolve

theorem resolve (hshrinks : Shrinks before after) {cwd names found : List String}
    {absolute : Bool} (hresolve : Resolution.resolve after cwd absolute names = some found) :
    Resolution.resolve before cwd absolute names = some found := hshrinks.resolveFrom hresolve

theorem locate (hshrinks : Shrinks before after) {cwd names found : List String}
    {absolute : Bool} (hlocate : Resolution.locate after cwd absolute names = some found) :
    Resolution.locate before cwd absolute names = some found := by
  unfold Resolution.locate at hlocate ⊢
  split at hlocate
  next => exact hshrinks.resolve hlocate
  next name _ =>
    split at hlocate
    next hup => rw [if_pos hup]; exact hshrinks.resolve hlocate
    next hup =>
      rw [if_neg hup]
      obtain ⟨dir, hdir, hfound⟩ := Option.bind_eq_some_iff.mp hlocate
      rw [Option.ite_none_right_eq_some] at hfound
      rw [hshrinks.resolve hdir, Option.bind_some, if_pos]
      · exact hfound.2
      · exact ⟨hshrinks _ _ hfound.1.1, hshrinks.isSome hfound.1.2⟩

end Shrinks

/-- The same with nothing below the location. -/
def View.bare (view : View) (loc : List String) : View :=
  fun other => if loc <+: other ∧ other ≠ loc then none else view other

section Bare

variable (view : View) (loc : List String)

@[simp] theorem bare_self : view.bare loc loc = view loc := by simp [View.bare]

end Bare

section Inside

variable {view : View} {cwd : List String} {absolute : Bool} {names : List String}
  {name : String}

/-- One step further, to something that is not followed. -/
theorem locate_append (hname : name ≠ "..") :
    locate view cwd absolute (names ++ [name]) =
      (resolve view cwd absolute names).bind fun dir =>
        if view dir = some .directory ∧ (view (dir ++ [name])).isSome then some (dir ++ [name])
        else none := by
  unfold locate
  rw [List.getLast?_concat, List.dropLast_concat]
  exact if_neg hname

/-- An entry of a directory is found through the directory. -/
theorem locate_entry {dir : List String} (hname : name ≠ "..")
    (hresolve : resolve view cwd absolute names = some dir) (hdir : view dir = some .directory)
    (hentry : (view (dir ++ [name])).isSome) :
    locate view cwd absolute (names ++ [name]) = some (dir ++ [name]) := by
  rw [locate_append hname, hresolve, Option.bind_some, if_pos ⟨hdir, hentry⟩]

theorem walk_append_directory
    {onLink : List String → String → List String → Option (List String)} {here dir : List String}
    (hname : name ≠ "..") (hdir : view dir = some .directory)
    (hinner : view (dir ++ [name]) = some .directory)
    (hlink : ∀ here target rest, onLink here target rest = some dir →
      onLink here target (rest ++ [name]) = some (dir ++ [name]))
    (hwalk : walk view onLink here names = some dir) :
    walk view onLink here (names ++ [name]) = some (dir ++ [name]) := by
  induction names generalizing here with
  | nil =>
      rw [walk, Option.ite_none_right_eq_some] at hwalk
      obtain rfl := Option.some.inj hwalk.2
      rw [List.nil_append, walk, if_pos hdir, if_neg hname, hinner]
      dsimp only
      rw [walk, if_pos (by rw [hinner]; rfl)]
  | cons first rest ih =>
      rw [walk, Option.ite_none_right_eq_some] at hwalk
      rw [List.cons_append, walk, if_pos hwalk.1]
      obtain ⟨_, hwalk⟩ := hwalk
      split at hwalk
      next hup => rw [if_pos hup]; exact ih hwalk
      next hup =>
        rw [if_neg hup]
        cases hkind : view (here ++ [first]) with
        | none => simp only [hkind, reduceCtorEq] at hwalk
        | some kind =>
            rw [hkind] at hwalk
            cases kind with
            | symlink target => exact hlink _ _ _ hwalk
            | file | directory => exact ih hwalk

/-- One step further, into a directory. -/
theorem resolve_append_directory {dir : List String} (hname : name ≠ "..")
    (hdir : view dir = some .directory) (hinner : view (dir ++ [name]) = some .directory)
    (hresolve : resolve view cwd absolute names = some dir) :
    resolve view cwd absolute (names ++ [name]) = some (dir ++ [name]) := by
  have hlinks : ∀ links here names, resolveFrom view links here names = some dir →
      resolveFrom view links here (names ++ [name]) = some (dir ++ [name]) := by
    intro links
    induction links with
    | zero =>
        intro here names hresolve
        exact walk_append_directory hname hdir hinner (fun _ _ _ hlink => by cases hlink) hresolve
    | succ links ih =>
        intro here names hresolve
        refine walk_append_directory hname hdir hinner (fun here target rest hlink => ?_) hresolve
        rw [← List.append_assoc]
        exact ih _ _ hlink
  exact hlinks 40 _ names hresolve

/-- A directory that `locate` finds is found by `resolve`. -/
theorem resolve_of_locate {loc : List String} (hlocate : locate view cwd absolute names = some loc)
    (hdirectory : view loc = some .directory) : resolve view cwd absolute names = some loc := by
  unfold locate at hlocate
  split at hlocate
  next hnone =>
    rw [List.getLast?_eq_none_iff] at hnone
    rwa [hnone]
  next name hlast =>
    split at hlocate
    next => exact hlocate
    next hname =>
      obtain ⟨dir, hdir, hfound⟩ := Option.bind_eq_some_iff.mp hlocate
      rw [Option.ite_none_right_eq_some] at hfound
      obtain rfl := Option.some.inj hfound.2
      have hinside := resolve_append_directory hname hfound.1.1 hdirectory hdir
      rwa [← List.dropLast_append_getLast? name hlast]

end Inside

end AcflyRos.Resolution

import PalletTypes.Proofs.FileTree.Access

/-!
The paths on the way to a path, and what making the directories of them leaves. Nothing
but directories is new, each where one of those paths leads, also when a later one cannot
be made.
-/

namespace PalletTypes

/-- The parent of a path, the parent of that, and so on to the path without names. -/
inductive Path.Ancestor (path : Path) : Path → Prop
  | parent : path.names ≠ [] → Path.Ancestor path path.parent
  | up {other : Path} : Path.Ancestor path other → other.names ≠ [] →
      Path.Ancestor path other.parent

theorem Path.Ancestor.of_parent {path other : Path} (named : path.names ≠ [])
    (ancestor : path.parent.Ancestor other) : path.Ancestor other := by
  induction ancestor with
  | parent parentNamed => exact .up (.parent named) parentNamed
  | up _ otherNamed induction => exact .up induction otherNamed

namespace Workspace

variable {workspace before after : Workspace} {path : Path}

theorem locate_ancestor {location : Location} {other : Path}
    (located : workspace.locate path = .ok location) (ancestor : path.Ancestor other) :
    ∃ directory, workspace.locate other = .ok directory ∧
      workspace.tree.entry? directory = some .directory := by
  induction ancestor with
  | parent => exact locate_parent located
  | up _ _ induction =>
      obtain ⟨directory, reached, _⟩ := induction
      exact locate_parent reached

/-! What is new after directories were made. -/

/-- Nothing stood at the location, and a directory stands there now, where one of the
paths leads. -/
structure NewDirectory (paths : Path → Prop) (before after : Workspace)
    (location : Location) : Prop where
  vacant : before.tree.entry? location = none
  standing : after.tree.entry? location = some .directory
  reached : ∃ path, paths path ∧ after.locate path = .ok location

/-- Every location holds what it held, or a new directory. -/
structure Makes (paths : Path → Prop) (before after : Workspace) : Prop where
  directory : after.directory = before.directory
  entries : ∀ location, after.tree.entry? location = before.tree.entry? location ∨
    NewDirectory paths before after location

namespace Makes

variable {paths others : Path → Prop} {middle : Workspace}

theorem refl (paths : Path → Prop) (workspace : Workspace) :
    Makes paths workspace workspace :=
  ⟨rfl, fun _ => Or.inl rfl⟩

theorem grows (makes : Makes paths before after) : before.Grows after := by
  refine ⟨makes.directory, ?_⟩
  intro location entry held
  rcases makes.entries location with same | new
  · rw [same, held]
  · rw [new.vacant] at held
    cases held

theorem mono (makes : Makes paths before after)
    (included : ∀ path, paths path → others path) : Makes others before after := by
  refine ⟨makes.directory, fun location => (makes.entries location).imp_right ?_⟩
  rintro ⟨vacant, standing, path, isPath, located⟩
  exact ⟨vacant, standing, path, included path isPath, located⟩

theorem trans (first : Makes paths before middle) (second : Makes paths middle after) :
    Makes paths before after := by
  refine ⟨second.directory.trans first.directory, fun location => ?_⟩
  rcases first.entries location with same | made
  · rcases second.entries location with sameAgain | made
    · exact Or.inl (sameAgain.trans same)
    · exact Or.inr ⟨same ▸ made.vacant, made.standing, made.reached⟩
  · -- A directory of the first step stays one, and its path still leads to it.
    obtain ⟨path, isPath, located⟩ := made.reached
    exact Or.inr ⟨made.vacant, second.grows.kept made.standing, path, isPath,
      second.grows.reaches.locate located⟩

theorem inside (makes : Makes paths before after) {name : String}
    {location : Location} (vacant : before.tree.entry? location = none)
    {entry : Entry} (standing : after.tree.entry? (name :: location) = some entry) :
    entry = .directory ∧ NewDirectory paths before after (name :: location) := by
  rcases makes.entries (name :: location) with same | new
  · rw [standing] at same
    have held := before.tree.closed same.symm
    change before.tree.entry? location = some .directory at held
    rw [vacant] at held
    cases held
  · have isDirectory := new.standing
    rw [standing] at isDirectory
    exact ⟨Option.some.inj isDirectory, new⟩

end Makes

theorem makeDirectory_makes (made : workspace.makeDirectory path = .ok after) :
    Makes (· = path) workspace after := by
  obtain ⟨location, located, vacant, places⟩ := makeDirectory_places made
  refine ⟨places.directory, fun other => ?_⟩
  by_cases same : other = location
  · subst same
    exact Or.inr ⟨vacant, places.here, path, rfl, places.reaches.locate located⟩
  · exact Or.inl (places.elsewhere same)

theorem ensureDirectory_makes (made : workspace.ensureDirectory path = .ok after) :
    Makes (· = path) workspace after := by
  unfold ensureDirectory at made
  cases tried : workspace.makeDirectory path with
  | ok other =>
      simp only [tried, Except.ok.injEq] at made
      exact made ▸ makeDirectory_makes tried
  | error fault =>
      simp only [tried] at made
      split at made
      · exact Except.ok.inj made ▸ Makes.refl _ workspace
      · cases made

def OnTheWay (path other : Path) : Prop :=
  other = path ∨ path.Ancestor other

theorem ensureDirectories_makes (workspace : Workspace) (levels : Nat) (path : Path) :
    Makes (OnTheWay path) workspace (workspace.ensureDirectories levels path).1 := by
  have step {before after : Workspace} {path : Path}
      (made : before.ensureDirectory path = .ok after) :
      Makes (OnTheWay path) before after :=
    (ensureDirectory_makes made).mono fun _ same => Or.inl same
  have below {before after : Workspace} {path : Path} (named : path.names ≠ [])
      (made : Makes (OnTheWay path.parent) before after) :
      Makes (OnTheWay path) before after := by
    refine made.mono fun other isOther => Or.inr ?_
    rcases isOther with rfl | ancestor
    · exact .parent named
    · exact .of_parent named ancestor
  fun_induction ensureDirectories workspace levels path with
  | case1 => exact Makes.refl _ _
  | case2 levels path after made => exact step made
  | case3 => exact Makes.refl _ _
  | case4 levels path missing tried named after fault upper induction =>
      rw [upper] at induction
      exact below named induction
  | case5 levels path missing tried named middle upper after made induction =>
      rw [upper] at induction
      exact (below named induction).trans (step made)
  | case6 levels path missing tried named middle upper fault failed induction =>
      rw [upper] at induction
      exact below named induction
  | case7 => exact Makes.refl _ _

theorem ensureDirectories_grows (workspace : Workspace) (levels : Nat) (path : Path) :
    workspace.Grows (workspace.ensureDirectories levels path).1 :=
  (ensureDirectories_makes workspace levels path).grows

theorem levelLimit_pos : 0 < levelLimit := by decide

theorem locate_of_no_names (none : path.names = []) :
    workspace.locate path = .ok (workspace.start path) := by
  apply locate_eq_ok_iff.mpr
  refine ⟨?_, ?_, ?_⟩
  · rw [none]
    exact fun _ member => nomatch member
  · obtain ⟨anchor, names⟩ := path
    cases none
    cases anchor <;> decide
  · rw [none]
    rfl

/-- On the way to where a path's last name is looked up, only its ancestors are made. -/
theorem ensureDirectories_parent_makes (workspace : Workspace) {levels : Nat}
    (some : 0 < levels) (path : Path) :
    Makes path.Ancestor workspace (workspace.ensureDirectories levels path.parent).1 := by
  by_cases named : path.names = []
  · have none : path.parent.names = [] := by
      simp only [Path.parent, named, List.dropLast_nil]
    rw [ensureDirectories_eq_self some (locate_of_no_names none)
      (start_isDirectory workspace path.parent)]
    exact Makes.refl _ workspace
  · refine (ensureDirectories_makes workspace levels path.parent).mono ?_
    rintro other (rfl | ancestor)
    · exact .parent named
    · exact .of_parent named ancestor

end Workspace

end PalletTypes

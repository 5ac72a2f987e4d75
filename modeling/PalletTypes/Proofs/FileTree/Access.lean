import PalletTypes.FileTree.Access
import PalletTypes.Proofs.Ordered

/-!
Laws of access by path. Where a path leads hangs on the directories alone, so it
is not moved by writing files and making directories. What was written is what
is read, and writing what is there already changes nothing.
-/

namespace PalletTypes

namespace FileTree

theorem put_eq_self {tree : FileTree} {name : String} {parent : Location}
    {entry : Entry} (inDirectory : tree.entry? parent = some .directory)
    (keepsDirectory : tree.entry? (name :: parent) = some .directory →
      entry = .directory)
    (held : tree.entry? (name :: parent) = some entry) :
    tree.put name parent entry inDirectory keepsDirectory = tree := by
  cases tree with
  | mk entries closed =>
      simp only [put, FileTree.mk.injEq]
      exact Ordered.put_eq_self held

/-- What stands in one tree as a directory does so in the other. -/
def KeepsDirectories (before after : FileTree) : Prop :=
  ∀ location : Location, before.entry? location = some .directory →
    after.entry? location = some .directory

theorem walk_append (tree : FileTree) (location : Location)
    (first second : List String) :
    tree.walk location (first ++ second) =
      (tree.walk location first).bind fun place => tree.walk place second := by
  induction first generalizing location with
  | nil => rfl
  | cons name names induction =>
      simp only [List.cons_append, walk]
      cases tree.entry? location with
      | none => rfl
      | some entry =>
          cases entry with
          | file content => rfl
          | directory =>
              simp only [induction]
              split
              · rfl
              · split <;> rfl

theorem walk_cons_eq_ok_iff {tree : FileTree} {location place : Location} {name : String}
    {names : List String} :
    tree.walk location (name :: names) = .ok place ↔
      tree.entry? location = some .directory ∧
        if name = ".." then tree.walk location.tail names = .ok place
        else name.utf8ByteSize ≤ nameLimit ∧ tree.walk (name :: location) names = .ok place := by
  cases found : tree.entry? location with
  | none => simp [walk, found]
  | some entry =>
      cases entry with
      | file content => simp [walk, found]
      | directory =>
          simp only [walk, found, true_and]
          split
          · rfl
          · split
            · rename_i tooLong
              simp [Nat.not_le.mpr tooLong]
            · rename_i fits
              simp [Nat.not_lt.mp fits]

theorem KeepsDirectories.walk {before after : FileTree}
    (kept : KeepsDirectories before after) {location place : Location}
    {names : List String} (walked : before.walk location names = .ok place) :
    after.walk location names = .ok place := by
  induction names generalizing location with
  | nil => exact walked
  | cons name names induction =>
      rw [walk_cons_eq_ok_iff] at walked ⊢
      obtain ⟨standing, further⟩ := walked
      refine ⟨kept location standing, ?_⟩
      by_cases isParent : name = ".."
      · rw [if_pos isParent] at further ⊢
        exact induction further
      · rw [if_neg isParent] at further ⊢
        exact ⟨further.1, induction further.2⟩

theorem walk_dropLast {tree : FileTree} {location place : Location}
    {names : List String} (nonempty : names ≠ [])
    (walked : tree.walk location names = .ok place) :
    ∃ directory, tree.walk location names.dropLast = .ok directory ∧
      tree.entry? directory = some .directory := by
  rw [← List.dropLast_append_getLast nonempty, walk_append] at walked
  cases front : tree.walk location names.dropLast with
  | error denial => simp [front, Except.bind] at walked
  | ok directory =>
      rw [front] at walked
      exact ⟨directory, rfl, (walk_cons_eq_ok_iff.mp walked).1⟩

theorem directory_of_below {tree : FileTree} {place location : Location} {entry : Entry}
    (standing : tree.entry? location = some entry) (below : place <:+ location)
    (different : place ≠ location) : tree.entry? place = some .directory := by
  induction location generalizing entry with
  | nil => exact absurd (List.suffix_nil.mp below) different
  | cons name parent induction =>
      have inParent := (List.suffix_cons_iff.mp below).resolve_left different
      have isDirectory : tree.entry? parent = some .directory := tree.closed standing
      by_cases same : place = parent
      · exact same ▸ isDirectory
      · exact induction isDirectory inParent same

/-! Ways that lead to no parent. -/

theorem eq_of_walk {tree : FileTree} {location place : Location} {names : List String}
    (descends : ".." ∉ names) (walked : tree.walk location names = .ok place) :
    place = names.reverse ++ location := by
  induction names generalizing location with
  | nil => exact (Except.ok.inj walked).symm
  | cons name names induction =>
      have isName : name ≠ ".." := fun same => descends (same ▸ List.mem_cons_self)
      have further := (walk_cons_eq_ok_iff.mp walked).2
      rw [if_neg isName] at further
      rw [induction (fun member => descends (List.mem_cons_of_mem _ member)) further.2]
      simp

/-- Such a way can be gone in every tree with a directory at its end. -/
theorem walk_of_descends {before after : FileTree} {location place : Location}
    {names : List String} (descends : ".." ∉ names)
    (walked : before.walk location names = .ok place)
    (standing : after.entry? place.tail = some .directory) :
    after.walk location names = .ok place := by
  induction names generalizing location with
  | nil => exact walked
  | cons name names induction =>
      have isName : name ≠ ".." := fun same => descends (same ▸ List.mem_cons_self)
      have others : ".." ∉ names := fun member => descends (List.mem_cons_of_mem _ member)
      have further := (walk_cons_eq_ok_iff.mp walked).2
      rw [if_neg isName] at further
      have above : location <:+ place.tail := by
        obtain ⟨below, rfl⟩ : name :: location <:+ place :=
          eq_of_walk others further.2 ▸ List.suffix_append _ _
        cases below with
        | nil => exact List.suffix_refl location
        | cons last below =>
            exact (List.suffix_cons name location).trans (List.suffix_append below _)
      refine walk_cons_eq_ok_iff.mpr ⟨?_, ?_⟩
      · by_cases same : location = place.tail
        · exact same ▸ standing
        · exact directory_of_below standing above same
      · rw [if_neg isName]
        exact ⟨further.1, induction others further.2⟩

end FileTree

namespace Path

theorem joined_dropLast (names : List String) :
    ∃ later, joined names = joined names.dropLast ++ later := by
  induction names with
  | nil => exact ⟨[], rfl⟩
  | cons name names induction =>
      cases names with
      | nil => exact ⟨name.toList, rfl⟩
      | cons next names =>
          obtain ⟨later, spelled⟩ := induction
          cases names with
          | nil => exact ⟨'/' :: next.toList, rfl⟩
          | cons last names =>
              refine ⟨later, ?_⟩
              simp only [joined, List.dropLast_cons_of_ne_nil, ne_eq, reduceCtorEq,
                not_false_eq_true] at spelled ⊢
              simp [spelled]

theorem toChars_parent (path : Path) :
    path.parent.toChars = ['.'] ∨
      ∃ later, path.toChars = path.parent.toChars ++ later := by
  obtain ⟨anchor, names⟩ := path
  obtain ⟨later, spelled⟩ := joined_dropLast names
  cases anchor with
  | relative =>
      cases front : names.dropLast with
      | nil => exact .inl (by simp [parent, toChars, front])
      | cons first rest =>
          refine .inr ⟨later, ?_⟩
          cases names with
          | nil => simp at front
          | cons name names => simp [parent, toChars, spelled, front]
  | root => exact .inr ⟨later, by simp [parent, toChars, spelled]⟩
  | doubleRoot => exact .inr ⟨later, by simp [parent, toChars, spelled]⟩

theorem utf8ByteSize_parent_le (path : Path) :
    path.parent.toString.utf8ByteSize ≤ max 1 path.toString.utf8ByteSize := by
  simp only [toString]
  rcases toChars_parent path with dot | ⟨later, spelled⟩
  · rw [dot]
    exact Nat.le_max_left 1 _
  · rw [spelled, String.ofList_append, String.utf8ByteSize_append]
    exact Nat.le_trans (Nat.le_add_right _ _) (Nat.le_max_right 1 _)

end Path

namespace Workspace

variable {workspace before after : Workspace} {path : Path}

theorem locate_eq_ok_iff {location : Location} :
    workspace.locate path = .ok location ↔
      (∀ name ∈ path.names, '\x00' ∉ name.toList) ∧
        path.toString.utf8ByteSize ≤ pathLimit ∧
          workspace.tree.walk (workspace.start path) path.names = .ok location := by
  unfold locate
  split
  · rename_i nullByte
    simp only [reduceCtorEq, false_iff, not_and]
    intro clean
    simp only [List.any_eq_true, decide_eq_true_eq] at nullByte
    obtain ⟨name, member, held⟩ := nullByte
    exact absurd held (clean name member)
  · rename_i clean
    have free : ∀ name ∈ path.names, '\x00' ∉ name.toList := by simpa using clean
    split
    · rename_i tooLong
      simp only [reduceCtorEq, false_iff, not_and]
      intro _ fits
      omega
    · rename_i fits
      cases walked : workspace.tree.walk (workspace.start path) path.names with
      | error denial => simp [Except.mapError]
      | ok place =>
          simp only [Except.mapError, Except.ok.injEq]
          exact ⟨fun same => ⟨free, Nat.le_of_not_lt fits, same⟩, fun held => held.2.2⟩

theorem start_isDirectory (workspace : Workspace) (path : Path) :
    workspace.tree.entry? (workspace.start path) = some .directory := by
  unfold start
  split
  · exact workspace.standing
  · rfl

/-- Two workspaces in which a path starts from the same place, the directories of
the one being directories of the other. -/
structure Reaches (before after : Workspace) : Prop where
  directory : after.directory = before.directory
  kept : before.tree.KeepsDirectories after.tree

theorem Reaches.locate (reaches : before.Reaches after) {location : Location}
    (located : before.locate path = .ok location) :
    after.locate path = .ok location := by
  rw [locate_eq_ok_iff] at located ⊢
  obtain ⟨clean, fits, walked⟩ := located
  have sameStart : after.start path = before.start path := by
    unfold start
    rw [reaches.directory]
  exact ⟨clean, fits, sameStart ▸ reaches.kept.walk walked⟩

/-- A path that leads anywhere has its last name looked up in a directory, to
which the path without that name leads. -/
theorem locate_parent {location : Location}
    (located : workspace.locate path = .ok location) :
    ∃ directory, workspace.locate path.parent = .ok directory ∧
      workspace.tree.entry? directory = some .directory := by
  rw [locate_eq_ok_iff] at located
  obtain ⟨clean, fits, walked⟩ := located
  have fitsParent : path.parent.toString.utf8ByteSize ≤ pathLimit := by
    have bound := Path.utf8ByteSize_parent_le path
    unfold pathLimit at fits ⊢
    omega
  have cleanParent : ∀ name ∈ path.parent.names, '\x00' ∉ name.toList :=
    fun name member => clean name (List.dropLast_subset _ member)
  have found : ∃ directory,
      workspace.tree.walk (workspace.start path) path.names.dropLast =
        .ok directory ∧
      workspace.tree.entry? directory = some .directory := by
    by_cases empty : path.names = []
    · rw [empty]
      exact ⟨_, rfl, start_isDirectory workspace path⟩
    · exact FileTree.walk_dropLast empty walked
  obtain ⟨directory, reached, standing⟩ := found
  exact ⟨directory, locate_eq_ok_iff.mpr ⟨cleanParent, fitsParent, reached⟩, standing⟩

theorem readFile_eq_ok_iff {content : Bytes} :
    workspace.readFile path = .ok content ↔
      ∃ location, workspace.locate path = .ok location ∧
        workspace.tree.entry? location = some (.file content) := by
  unfold readFile entry?
  cases located : workspace.locate path with
  | error fault => simp [Except.map]
  | ok location =>
      simp only [Except.map, Except.ok.injEq, exists_eq_left']
      cases workspace.tree.entry? location with
      | none => simp
      | some entry => cases entry <;> simp

/-! Placing an entry: one location, which held no directory, holds something
else. -/

structure Places (before : Workspace) (location : Location) (entry : Entry)
    (after : Workspace) : Prop where
  directory : after.directory = before.directory
  free : before.tree.entry? location ≠ some .directory
  here : after.tree.entry? location = some entry
  elsewhere : ∀ {other : Location}, other ≠ location →
    after.tree.entry? other = before.tree.entry? other

theorem Places.reaches {location : Location} {entry : Entry}
    (places : before.Places location entry after) : before.Reaches after where
  directory := places.directory
  kept := by
    intro other standing
    have different : other ≠ location := fun same => places.free (same ▸ standing)
    rw [places.elsewhere different, standing]

theorem put_places {location : Location} {entry : Entry}
    {free : workspace.tree.entry? location ≠ some .directory}
    (done : workspace.put path location entry free = .ok after) :
    workspace.Places location entry after := by
  cases location with
  | nil => simp [put] at done
  | cons name parent =>
      simp only [put] at done
      split at done
      · rename_i inDirectory
        simp only [Except.ok.injEq] at done
        subst done
        have keeps : workspace.tree.entry? (name :: parent) = some .directory →
            entry = .directory := fun standing => absurd standing free
        exact ⟨rfl, free, FileTree.entry?_put_self inDirectory keeps,
          fun different => FileTree.entry?_put_ne inDirectory keeps different⟩
      · simp at done

theorem writeFile_places {content : Bytes}
    (written : workspace.writeFile path content = .ok after) :
    ∃ location, workspace.locate path = .ok location ∧
      workspace.Places location (.file content) after := by
  unfold writeFile at written
  cases located : workspace.locate path with
  | error fault => simp [located] at written
  | ok location =>
      simp only [located] at written
      split at written
      · simp at written
      · exact ⟨location, rfl, put_places written⟩

theorem makeDirectory_places (made : workspace.makeDirectory path = .ok after) :
    ∃ location, workspace.locate path = .ok location ∧
      workspace.tree.entry? location = none ∧
      workspace.Places location .directory after := by
  unfold makeDirectory at made
  cases located : workspace.locate path with
  | error fault => simp [located] at made
  | ok location =>
      simp only [located] at made
      split at made
      · rename_i vacant
        exact ⟨location, rfl, vacant, put_places made⟩
      · simp at made

theorem readFile_writeFile {content : Bytes}
    (written : workspace.writeFile path content = .ok after) :
    after.readFile path = .ok content := by
  obtain ⟨location, located, places⟩ := writeFile_places written
  exact readFile_eq_ok_iff.mpr ⟨location, places.reaches.locate located, places.here⟩

theorem writeFile_eq_self {content : Bytes}
    (held : workspace.readFile path = .ok content) :
    workspace.writeFile path content = .ok workspace := by
  obtain ⟨location, located, standing⟩ := readFile_eq_ok_iff.mp held
  have noDirectory : workspace.tree.entry? location ≠ some .directory := by
    simp [standing]
  simp only [writeFile, located, noDirectory, dite_false]
  cases location with
  | nil => cases standing
  | cons name parent =>
      have inDirectory : workspace.tree.entry? parent = some .directory :=
        workspace.tree.closed standing
      have unchanged := FileTree.put_eq_self inDirectory
        (fun isDirectory => absurd isDirectory noDirectory) standing
      simp only [put]
      rw [dif_pos inDirectory]
      simp only [unchanged]

/-! A tree that grows keeps what it held. -/

structure Grows (before after : Workspace) : Prop where
  directory : after.directory = before.directory
  kept : ∀ {location : Location} {entry : Entry},
    before.tree.entry? location = some entry →
      after.tree.entry? location = some entry

theorem Grows.refl (workspace : Workspace) : workspace.Grows workspace :=
  ⟨rfl, id⟩

theorem Grows.trans {middle : Workspace} (first : before.Grows middle)
    (second : middle.Grows after) : before.Grows after :=
  ⟨second.directory.trans first.directory, fun held => second.kept (first.kept held)⟩

theorem Grows.reaches (grows : before.Grows after) : before.Reaches after :=
  ⟨grows.directory, fun _ => grows.kept⟩

theorem ensureDirectories_eq_self {directory : Location} {levels : Nat}
    (some : 0 < levels) (located : workspace.locate path = .ok directory)
    (standing : workspace.tree.entry? directory = .some .directory) :
    workspace.ensureDirectories levels path = (workspace, .ok ()) := by
  have refused : workspace.makeDirectory path =
      .error (.denied .alreadyThere path) := by
    simp [makeDirectory, located, standing]
  have isDirectory : workspace.isDirectory path = true := by
    simp [Workspace.isDirectory, entry?, located, standing, Except.map]
  cases levels with
  | zero => contradiction
  | succ levels => simp [ensureDirectories, ensureDirectory, refused, isDirectory]

end Workspace

end PalletTypes

import PalletTypes.Ordered
import PalletTypes.Text.Utf8

/-!
Trees of regular files and directories. A location lists the names from the
innermost one to the root; everything in a tree stands in a directory of it.
-/

namespace PalletTypes

/-- The names that lead to a place, the last one first. -/
abbrev Location := List String

inductive Entry where
  | directory
  | file (content : Bytes)
deriving DecidableEq

/-- What stands at a location. The root is always a directory. -/
def entryIn? (entries : List (Location × Entry)) : Location → Option Entry
  | [] => some .directory
  | name :: parent => Ordered.lookup? (name :: parent) entries

structure FileTree where
  entries : List (Location × Entry)
  closed : ∀ {name : String} {parent : Location} {entry : Entry},
    entryIn? entries (name :: parent) = some entry →
      entryIn? entries parent = some .directory

namespace FileTree

def empty : FileTree :=
  ⟨[], fun found => by simp [entryIn?, Ordered.lookup?] at found⟩

def entry? (tree : FileTree) (location : Location) : Option Entry :=
  entryIn? tree.entries location

private theorem entryIn?_put_ne {entries : List (Location × Entry)}
    {location other : Location} {entry : Entry} (different : other ≠ location) :
    entryIn? (Ordered.put location entry entries) other = entryIn? entries other := by
  cases other with
  | nil => rfl
  | cons name parent => exact Ordered.lookup?_put_ne entry entries different

/-- Puts an entry under a name in a directory. A directory that stands there
must stay one, so that what it holds keeps its place. -/
def put (tree : FileTree) (name : String) (parent : Location) (entry : Entry)
    (inDirectory : tree.entry? parent = some .directory)
    (keepsDirectory : tree.entry? (name :: parent) = some .directory →
      entry = .directory) : FileTree where
  entries := Ordered.put (name :: parent) entry tree.entries
  closed := by
    intro inner outer found held
    have parentOf : entryIn? tree.entries outer = some .directory := by
      by_cases same : inner :: outer = name :: parent
      · rw [(List.cons.inj same).2]
        exact inDirectory
      · rw [entryIn?_put_ne same] at held
        exact tree.closed held
    by_cases same : outer = name :: parent
    · rw [same] at parentOf ⊢
      simp only [entryIn?]
      rw [Ordered.lookup?_put_self, keepsDirectory parentOf]
    · rw [entryIn?_put_ne same]
      exact parentOf

theorem entry?_put_self {tree : FileTree} {name : String} {parent : Location}
    {entry : Entry} (inDirectory : tree.entry? parent = some .directory)
    (keepsDirectory : tree.entry? (name :: parent) = some .directory →
      entry = .directory) :
    FileTree.entry? (tree.put name parent entry inDirectory keepsDirectory)
      (name :: parent) = some entry :=
  Ordered.lookup?_put_self (name :: parent) entry tree.entries

theorem entry?_put_ne {tree : FileTree} {name : String} {parent other : Location}
    {entry : Entry} (inDirectory : tree.entry? parent = some .directory)
    (keepsDirectory : tree.entry? (name :: parent) = some .directory →
      entry = .directory)
    (different : other ≠ name :: parent) :
    FileTree.entry? (tree.put name parent entry inDirectory keepsDirectory) other =
      tree.entry? other :=
  entryIn?_put_ne different

/-- Whether the second location is the first one or lies below it. -/
def holds (outer : Location) (location : Location) : Bool :=
  outer.isSuffixOf location

end FileTree

end PalletTypes

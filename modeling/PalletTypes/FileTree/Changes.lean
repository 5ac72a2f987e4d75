import PalletTypes.FileTree

/-!
What differs between two trees, below one directory.
-/

namespace PalletTypes

inductive Change where
  | directory
  | file (content : Bytes)
  | removed
deriving DecidableEq

namespace FileTree

/-- The path of an entry from the directory it is seen from. -/
def relativePath (directory location : Location) (entry : Entry) : String :=
  let names := (location.take (location.length - directory.length)).reverse
  let spelling := "/".intercalate names
  match entry with
  | .directory => spelling ++ "/"
  | .file _ => spelling

/-- The entries that are new, differ or are gone, in the order of their paths. -/
def changes (directory : Location) (before after : FileTree) :
    List (String × Change) :=
  let isInside (entry : Location × Entry) : Bool :=
    holds directory entry.1 && entry.1 != directory
  let appeared := after.entries.filterMap fun (location, entry) =>
    if !isInside (location, entry) ∨ before.entry? location = some entry then none
    else some (relativePath directory location entry,
      match entry with
      | .directory => Change.directory
      | .file content => .file content)
  let disappeared := before.entries.filterMap fun (location, entry) =>
    if !isInside (location, entry) ∨ (after.entry? location).isSome then none
    else some (relativePath directory location entry, Change.removed)
  (appeared ++ disappeared).mergeSort fun first second => first.1 ≤ second.1

end FileTree

end PalletTypes

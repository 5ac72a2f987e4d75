import PalletTypes.FileTree
import PalletTypes.Path

/-!
Access to a tree by path, as a system with directories and regular files grants
it. A path is walked name by name: each name but the last must lead to a
directory, and `..` leads back to the one that holds it.
-/

namespace PalletTypes

inductive Denial where
  | missing
  | alreadyThere
  | notDirectory
  | isDirectory
  | nameTooLong
deriving DecidableEq

def Denial.number : Denial → Nat
  | .missing => 2
  | .alreadyThere => 17
  | .notDirectory => 20
  | .isDirectory => 21
  | .nameTooLong => 36

def Denial.message : Denial → String
  | .missing => "No such file or directory"
  | .alreadyThere => "File exists"
  | .notDirectory => "Not a directory"
  | .isDirectory => "Is a directory"
  | .nameTooLong => "File name too long"

inductive AccessFault where
  | denied (denial : Denial) (path : Path)
  | nullByte
  | deepNesting
deriving DecidableEq

def nameLimit : Nat := 255

def pathLimit : Nat := 4095

/-- How many missing directories are made on the way to one. -/
def levelLimit : Nat := 990

def FileTree.walk (tree : FileTree) :
    Location → List String → Except Denial Location
  | location, [] => .ok location
  | location, name :: names =>
      match tree.entry? location with
      | none => .error .missing
      | some (.file _) => .error .notDirectory
      | some .directory =>
          if name = ".." then tree.walk location.tail names
          else if nameLimit < name.utf8ByteSize then .error .nameTooLong
          else tree.walk (name :: location) names

/-- A tree and the directory of it from which relative paths start. -/
structure Workspace where
  tree : FileTree
  directory : Location
  standing : tree.entry? directory = some .directory

namespace Workspace

def empty : Workspace := ⟨.empty, [], rfl⟩

def enter? (workspace : Workspace) (directory : Location) : Option Workspace :=
  if standing : workspace.tree.entry? directory = some .directory then
    some { workspace with directory, standing }
  else none

def start (workspace : Workspace) (path : Path) : Location :=
  match path.anchor with
  | .relative => workspace.directory
  | _ => []

/-- Where a path leads. Nothing need stand there. -/
def locate (workspace : Workspace) (path : Path) : Except AccessFault Location :=
  if path.names.any fun name => '\x00' ∈ name.toList then .error .nullByte
  else if pathLimit < path.toString.utf8ByteSize then
    .error (.denied .nameTooLong path)
  else (workspace.tree.walk (workspace.start path) path.names).mapError
    fun denial => .denied denial path

def entry? (workspace : Workspace) (path : Path) :
    Except AccessFault (Option Entry) :=
  (workspace.locate path).map workspace.tree.entry?

/-- Whether anything stands where a path leads. Only a name that is too long
keeps this from an answer. -/
def pathExists (workspace : Workspace) (path : Path) : Except AccessFault Bool :=
  match workspace.entry? path with
  | .ok entry => .ok entry.isSome
  | .error (.denied .nameTooLong path) => .error (.denied .nameTooLong path)
  | .error _ => .ok false

def isDirectory (workspace : Workspace) (path : Path) : Bool :=
  match workspace.entry? path with
  | .ok (some .directory) => true
  | _ => false

def readFile (workspace : Workspace) (path : Path) : Except AccessFault Bytes :=
  match workspace.entry? path with
  | .error fault => .error fault
  | .ok none => .error (.denied .missing path)
  | .ok (some .directory) => .error (.denied .isDirectory path)
  | .ok (some (.file content)) => .ok content

def put (workspace : Workspace) (path : Path) (location : Location) (entry : Entry)
    (free : workspace.tree.entry? location ≠ some .directory) :
    Except AccessFault Workspace :=
  match location, free with
  | [], _ => .error (.denied .missing path)
  | name :: parent, free =>
      if inDirectory : workspace.tree.entry? parent = some .directory then
        .ok {
          tree := workspace.tree.put name parent entry inDirectory
            fun standing => absurd standing free
          directory := workspace.directory
          standing := by
            have different : workspace.directory ≠ name :: parent :=
              fun same => free (same ▸ workspace.standing)
            rw [FileTree.entry?_put_ne inDirectory _ different]
            exact workspace.standing }
      else .error (.denied .missing path)

def writeFile (workspace : Workspace) (path : Path) (content : Bytes) :
    Except AccessFault Workspace :=
  match workspace.locate path with
  | .error fault => .error fault
  | .ok location =>
      if standing : workspace.tree.entry? location = some .directory then
        .error (.denied .isDirectory path)
      else workspace.put path location (.file content) standing

def makeDirectory (workspace : Workspace) (path : Path) :
    Except AccessFault Workspace :=
  match workspace.locate path with
  | .error fault => .error fault
  | .ok location =>
      if vacant : workspace.tree.entry? location = none then
        workspace.put path location .directory (by simp [vacant])
      else .error (.denied .alreadyThere path)

def ensureDirectory (workspace : Workspace) (path : Path) :
    Except AccessFault Workspace :=
  match workspace.makeDirectory path with
  | .ok workspace => .ok workspace
  | .error fault =>
      if workspace.isDirectory path then .ok workspace else .error fault

/-- Makes a directory and those on the way to it. They are tried from the last
one back, at most `levels` of them, until one can be made; what was made stays
when a later one cannot be. -/
def ensureDirectories (workspace : Workspace) :
    (levels : Nat) → Path → Workspace × Except AccessFault Unit
  | 0, _ => (workspace, .error .deepNesting)
  | levels + 1, path =>
      match workspace.ensureDirectory path with
      | .ok workspace => (workspace, .ok ())
      | .error (.denied .missing missing) =>
          if path.names = [] then (workspace, .error (.denied .missing missing))
          else
            match workspace.ensureDirectories levels path.parent with
            | (workspace, .error fault) => (workspace, .error fault)
            | (workspace, .ok ()) =>
                match workspace.ensureDirectory path with
                | .ok workspace => (workspace, .ok ())
                | .error fault => (workspace, .error fault)
      | .error fault => (workspace, .error fault)

end Workspace

end PalletTypes

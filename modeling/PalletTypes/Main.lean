import PalletTypes.FileTree.Changes
import PalletTypes.Program

/-!
The program on a real system. The files that a run may touch are read into a
workspace; the run is made there, and what it changed is then written out.
-/

namespace PalletTypes.Host

/-- A path and all paths on the way to it. -/
def approaches (path : Path) : List Path :=
  (List.range (path.names.length + 1)).map fun count =>
    { path with names := path.names.take count }

def record (workspace : Workspace) (path : Path) : IO Workspace := do
  match ← (IO.FS.realPath path.toString).toBaseIO with
  | .error _ => return workspace
  | .ok place =>
      let location := Path.ofString place.toString
      if ← place.isDir then
        return (workspace.ensureDirectories levelLimit location).1
      else
        let content ← IO.FS.readBinFile place
        let (workspace, _) := workspace.ensureDirectories levelLimit location.parent
        return (workspace.writeFile location content.toList).toOption.getD workspace

/-- The workspace of the current directory, with what stands on the way to the
paths. -/
def snapshot (paths : List Path) : IO Workspace := do
  let current := Path.ofString (← IO.currentDir).toString
  let mut workspace ← record .empty current
  for path in paths do
    for approach in approaches path do
      workspace ← record workspace approach
  return (workspace.enter? current.names.reverse).getD workspace

def writeOut : String × Change → IO Unit
  | (path, .directory) => IO.FS.createDirAll ("/" ++ path)
  | (path, .file content) =>
      IO.FS.writeBinFile ("/" ++ path) (ByteArray.mk content.toArray)
  | (_, .removed) => pure ()

/-- The texts of the environment files that may stand in the directories from
the given one up. -/
def environmentFiles (directory : Path) : IO (List (Option (List Char))) :=
  (approaches directory).reverse.mapM fun place => do
    match ← (IO.FS.readFile (place.child ".env").toString).toBaseIO with
    | .ok text => return some text.toList
    | .error _ => return none

def variableNames (text : List Char) : List String :=
  [rootVariable, EnvFile.disablingVariable, "HOME"] ++
    (EnvFile.bindings text).flatMap fun binding =>
      binding.name :: (EnvFile.pieces (binding.value.getD "").toList).filterMap
        fun piece =>
          match piece with
          | .literal _ => none
          | .reference name _ => some (String.ofList name)

def readEnvironment (names : List String) : IO Environment :=
  names.foldlM (fun environment name => do
    match ← IO.getEnv name with
    | some value => return Ordered.put name value environment
    | none => return environment) []

def run (arguments : List String) : IO UInt32 := do
  let repository := Path.ofString (← IO.appDir).toString
  let files ← environmentFiles repository
  let environment ← readEnvironment
    (variableNames (Newline.normalize ((files.findSome? id).getD [])))
  match Site.loadNearest ⟨environment, repository⟩ files with
  | .error failure =>
      IO.eprintln failure.message
      return 1
  | .ok site =>
      let paths :=
        match Command.ofTexts (arguments.map String.toList) with
        | .run options => (options.request .standard).paths site
        | _ => []
      let before ← snapshot paths
      let run := before.run site .standard arguments
      for change in FileTree.changes [] before.tree run.workspace.tree do
        writeOut change
      IO.print run.output
      IO.eprint run.errors
      match run.exit with
      | .ok status => return status.toUInt32
      | .error failure =>
          IO.eprintln failure.message
          return 1

end PalletTypes.Host

def main (arguments : List String) : IO UInt32 :=
  PalletTypes.Host.run arguments

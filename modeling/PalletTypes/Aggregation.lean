import PalletTypes.Configuration
import PalletTypes.Json.Layout
import PalletTypes.Json.Reader
import PalletTypes.Merge
import PalletTypes.Report

/-!
Aggregation: the types of all pallets, read from their files in order and merged
into one file, and the check whether that file is up to date.
-/

namespace PalletTypes

/-- What an operation comes to: its result, what it told, and the files after
it. -/
structure Outcome (α : Type) where
  result : Except Failure α
  log : List Event
  workspace : Workspace

def decodeTypes (path : Path) (content : Bytes) : Except Failure Json.Members :=
  match Utf8.decode content with
  | .error fault => .error (.notUtf8 path fault)
  | .ok characters =>
      let text := Newline.normalize characters
      match Json.read .strict text with
      | .error (.malformed complaint rest) =>
          .error (.malformed path complaint (.ofRest text rest))
      | .error (.bareWord kind _) => .error (.bareWord path kind)
      | .error (.longInteger digits) => .error (.longInteger digits)
      | .error .deepNesting => .error .deepNesting
      | .ok (.object members) => .ok members
      | .ok value => .error (.notObject path value.kind)

def encodeTypes (value : Json.Value) : Except Failure Bytes :=
  match value.render with
  | .error kind => .error (.notFinite kind)
  | .ok text => text.encode.mapError .unencodable

namespace Workspace

def loadTypes (workspace : Workspace) (path : Path) : Except Failure Json.Members :=
  match workspace.readFile path with
  | .error fault => .error (.ofAccess fault)
  | .ok content => decodeTypes path content

/-- Loads files and merges each before the next one is loaded. The first that
cannot be loaded ends it; what was overridden before stays told. -/
def mergeFiles (workspace : Workspace) (merge : Merge) :
    List Path → Except Failure Json.Members × List Text
  | [] => (.ok merge.types, merge.overridden)
  | path :: paths =>
      match workspace.loadTypes path with
      | .error failure => (.error failure, merge.overridden)
      | .ok layer => workspace.mergeFiles (merge.add layer) paths

def typesPath (directory : Path) (pallet : String) : Path :=
  (directory.child pallet).child typesFileName

def collectTypes (workspace : Workspace) (seeds : Seeds) (directory : Path)
    (pallets : List String) : Outcome Json.Members :=
  let (result, overridden) := workspace.mergeFiles (.ofLayers seeds.layers)
    (pallets.map (typesPath directory))
  ⟨result, overridden.map .overridden, workspace⟩

end Workspace

structure Request where
  seeds : Seeds
  root : Option Path
  pallets : List String
  output : Option Path

def Request.paths (request : Request) (site : Site) : List Path :=
  match site.resolve request.root request.output with
  | .error _ => []
  | .ok (root, output) =>
      request.pallets.map (Workspace.typesPath (root.child palletsDirectoryName)) ++
        [output]

/-- What a request comes to before any file is written: the output path, the
number of types, and the content to write. -/
structure Plan where
  output : Path
  count : Nat
  content : Bytes

namespace Workspace

def plan (workspace : Workspace) (site : Site) (request : Request) : Outcome Plan :=
  match site.resolve request.root request.output with
  | .error failure => ⟨.error failure, [], workspace⟩
  | .ok (root, output) =>
      let collected := workspace.collectTypes request.seeds
        (root.child palletsDirectoryName) request.pallets
      let result :=
        match collected.result with
        | .error failure => .error failure
        | .ok types => (encodeTypes (.object types)).map fun content =>
            ⟨output, types.length, content⟩
      { collected with result }

/-- Writes the aggregated types, and the directories on the way to the output.
Nothing is made before all types are read and the whole content is known. -/
def aggregate (workspace : Workspace) (site : Site) (request : Request) :
    Outcome Path :=
  let planned := workspace.plan site request
  match planned.result with
  | .error failure => ⟨.error failure, planned.log, workspace⟩
  | .ok plan =>
      match workspace.ensureDirectories levelLimit plan.output.parent with
      | (workspace, .error fault) => ⟨.error (.ofAccess fault), planned.log, workspace⟩
      | (workspace, .ok ()) =>
          match workspace.writeFile plan.output plan.content with
          | .error fault => ⟨.error (.ofAccess fault), planned.log, workspace⟩
          | .ok workspace =>
              ⟨.ok plan.output, planned.log ++
                [.wrote plan.count request.pallets.length plan.output], workspace⟩

/-- Whether the output holds exactly what aggregating would write. -/
def check (workspace : Workspace) (site : Site) (request : Request) : Outcome Bool :=
  let planned := workspace.plan site request
  let told (result : Except Failure Bool) (log : List Event) : Outcome Bool :=
    ⟨result, planned.log ++ log, workspace⟩
  match planned.result with
  | .error failure => told (.error failure) []
  | .ok plan =>
      match workspace.pathExists plan.output with
      | .error fault => told (.error (.ofAccess fault)) []
      | .ok false => told (.ok false) [.absent plan.output]
      | .ok true =>
          match workspace.readFile plan.output with
          | .error fault => told (.error (.ofAccess fault)) []
          | .ok content =>
              if content = plan.content then told (.ok true) [.upToDate plan.output]
              else told (.ok false) [.outOfDate plan.output]

end Workspace

end PalletTypes

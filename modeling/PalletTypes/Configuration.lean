import PalletTypes.EnvFile
import PalletTypes.Failure
import PalletTypes.Json.Value
import PalletTypes.Text.Newline

/-!
What is aggregated and where: the pallets in the order of merging, the types
that go before theirs, and the root directory.
-/

namespace PalletTypes

def palletsDirectoryName : String := "pallets"

def typesFileName : String := "types.json"

/-- The pallets in the order of merging; the last one wins. -/
def standardPallets : List String :=
  ["faucets", "permissions", "post-history", "posts", "profile-follows",
    "profile-history", "profiles", "reactions", "roles", "space-follows",
    "space-history", "space-ownership", "spaces", "utils"]

/-- The layers that are merged before those of the pallets. -/
structure Seeds where
  runtimeOverrides : Json.Members
  builtinTypes : Json.Members

def Seeds.standard : Seeds where
  runtimeOverrides := []
  builtinTypes := [(Text.ofString "IpfsCid", .string (Text.ofString "Text"))]

def Seeds.layers (seeds : Seeds) : List Json.Members :=
  [seeds.runtimeOverrides, seeds.builtinTypes]

/-- The surroundings of a run: its environment, and the directory of the
repository that it belongs to. -/
structure Site where
  environment : Environment
  repository : Path

def rootVariable : String := "TYPES_ROOT"

namespace Site

/-- The root that the environment names, with `~` put right, unless it names
none; then the repository. -/
def defaultRoot (site : Site) : Except Failure Path :=
  match site.environment.get? rootVariable with
  | none | some "" => .ok site.repository
  | some root =>
      match (Path.ofString root).expandHome (site.environment.get? "HOME") with
      | some path => .ok path
      | none => .error .homeUnknown

def resolve (site : Site) (root output : Option Path) :
    Except Failure (Path × Path) :=
  let found : Except Failure Path :=
    match root with
    | some root => .ok root
    | none => site.defaultRoot
  found.map fun root => (root, output.getD (root.child typesFileName))

/-- Loads the nearest environment file there is, from texts given the nearest
first. A file that is there hides those farther off, even when it is empty. -/
def loadNearest (site : Site) (files : List (Option (List Char))) :
    Except Failure Site :=
  match files.findSome? id with
  | none => .ok site
  | some text =>
      match EnvFile.load site.environment (Newline.normalize text) with
      | .ok environment => .ok { site with environment }
      | .error .illegalName => .error .illegalVariable
      | .error .nullByte => .error .nullByte

end Site

end PalletTypes

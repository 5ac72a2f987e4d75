import PalletTypes.Json.Value
import PalletTypes.Ordered

/-!
Shallow merging of layers. A later layer wins on a name that both have; the name
keeps the place it had.
-/

namespace PalletTypes

/-- The types merged so far, and the names that a layer found there, in order. -/
structure Merge where
  types : Json.Members
  overridden : List Text

namespace Merge

def empty : Merge := ⟨[], []⟩

def clashes (types layer : Json.Members) : List Text :=
  (Ordered.keys layer).filter fun name => (Ordered.lookup? name types).isSome

def add (merge : Merge) (layer : Json.Members) : Merge :=
  ⟨Ordered.putAll merge.types layer, merge.overridden ++ clashes merge.types layer⟩

def ofLayers (layers : List Json.Members) : Merge :=
  layers.foldl add empty

end Merge

end PalletTypes

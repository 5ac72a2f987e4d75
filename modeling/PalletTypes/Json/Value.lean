import PalletTypes.Decimal.Binary64
import PalletTypes.Text.CodePoint

/-!
JSON values. Whole numbers are unbounded and apart from doubles; an object keeps
its members in order, a name at most once.
-/

namespace PalletTypes.Json

inductive Value where
  | null
  | bool (value : Bool)
  | integer (value : Int)
  | float (value : Binary64)
  | string (value : Text)
  | array (items : List Value)
  | object (members : List (Text × Value))

abbrev Members := List (Text × Value)

def Value.kind : Value → String
  | .null => "NoneType"
  | .bool _ => "bool"
  | .integer _ => "int"
  | .float _ => "float"
  | .string _ => "str"
  | .array _ => "list"
  | .object _ => "dict"

mutual
/-- The doubles of a value, in the order in which they are written. -/
def Value.floats : Value → List Binary64
  | .float value => [value]
  | .array items => floatsOfItems items
  | .object members => floatsOfMembers members
  | _ => []

def floatsOfItems : List Value → List Binary64
  | [] => []
  | item :: items => item.floats ++ floatsOfItems items

def floatsOfMembers : List (Text × Value) → List Binary64
  | [] => []
  | (_, value) :: members => value.floats ++ floatsOfMembers members
end

end PalletTypes.Json

import PalletTypes.Decimal.Shortest
import PalletTypes.Json.Value

/-!
Written JSON. The indented layout gives every item and member a line of its own,
two spaces in for each container around it; the compact one has no white space.
Both leave an empty container as its two brackets.
-/

namespace PalletTypes.Json

abbrev Escape := CodePoint → Text

def escapeUnit (unit : Nat) : List Char :=
  '\\' :: 'u' :: hexDigits 4 unit

/-- The escapes that every string literal has: those with a letter, and those by
number for the other controls. -/
def requiredEscape? (character : Char) : Option (List Char) :=
  match character with
  | '"' => some ['\\', '"']
  | '\\' => some ['\\', '\\']
  | '\n' => some ['\\', 'n']
  | '\r' => some ['\\', 'r']
  | '\t' => some ['\\', 't']
  | '\x08' => some ['\\', 'b']
  | '\x0c' => some ['\\', 'f']
  | _ => if character.toNat < 0x20 then some (escapeUnit character.toNat) else none

/-- Escapes no more than a literal has to. -/
def Escape.minimal : Escape
  | .scalar character => Text.ofChars ((requiredEscape? character).getD [character])
  | codePoint => [codePoint]

def writeString (escape : Escape) (text : Text) : Text :=
  .scalar '"' :: text.flatMap escape ++ [.scalar '"']

def writeInteger (value : Int) : List Char :=
  if value < 0 then '-' :: Decimal.toDigits value.natAbs
  else Decimal.toDigits value.natAbs

/-- A value that is no container, or an empty one. -/
def writeScalar (escape : Escape) : Value → Text
  | .null => Text.ofString "null"
  | .bool true => Text.ofString "true"
  | .bool false => Text.ofString "false"
  | .integer value => Text.ofChars (writeInteger value)
  | .float value => Text.ofChars value.write
  | .string text => writeString escape text
  | .array _ => Text.ofString "[]"
  | .object _ => Text.ofChars ['{', '}']

def newLine (depth : Nat) : Text :=
  Text.ofChars ('\n' :: List.replicate (2 * depth) ' ')

mutual
/-- A value that stands inside `depth` containers, without the line break and
the spaces before it. -/
def Value.layout (depth : Nat) : Value → Text
  | .array (item :: items) =>
      .scalar '[' :: newLine (depth + 1) ++ item.layout (depth + 1) ++
        layoutItems (depth + 1) items ++ newLine depth ++ [.scalar ']']
  | .object ((name, value) :: members) =>
      .scalar '{' :: newLine (depth + 1) ++ writeString .minimal name ++
        Text.ofString ": " ++ value.layout (depth + 1) ++
        layoutMembers (depth + 1) members ++ newLine depth ++ [.scalar '}']
  | value => writeScalar .minimal value

def layoutItems (depth : Nat) : List Value → Text
  | [] => []
  | item :: items =>
      .scalar ',' :: newLine depth ++ item.layout depth ++ layoutItems depth items

def layoutMembers (depth : Nat) : List (Text × Value) → Text
  | [] => []
  | (name, value) :: members =>
      .scalar ',' :: newLine depth ++ writeString .minimal name ++
        Text.ofString ": " ++ value.layout depth ++ layoutMembers depth members
end

mutual
def Value.compact (escape : Escape) : Value → Text
  | .array (item :: items) =>
      .scalar '[' :: item.compact escape ++ compactItems escape items ++
        [.scalar ']']
  | .object ((name, value) :: members) =>
      .scalar '{' :: writeString escape name ++ .scalar ':' ::
        value.compact escape ++ compactMembers escape members ++ [.scalar '}']
  | value => writeScalar escape value

def compactItems (escape : Escape) : List Value → Text
  | [] => []
  | item :: items =>
      .scalar ',' :: item.compact escape ++ compactItems escape items

def compactMembers (escape : Escape) : List (Text × Value) → Text
  | [] => []
  | (name, value) :: members =>
      .scalar ',' :: writeString escape name ++ .scalar ':' ::
        value.compact escape ++ compactMembers escape members
end

/-- The indented text of a value, unless one of its doubles is not finite; the
first such double is why not. -/
def Value.render (value : Value) : Except NonFinite Text :=
  match value.floats.findSome? Binary64.nonFinite? with
  | some kind => .error kind
  | none => .ok (value.layout 0)

end PalletTypes.Json

import PalletTypes.Decimal.Binary64

/-!
Why a text is not read as JSON, and where. A fault holds what was left of the
text when it was met, from which its position follows.
-/

namespace PalletTypes.Json

inductive Complaint where
  | value
  | name
  | colon
  | comma
  | unterminatedString
  | controlCharacter
  | escape
  | unicodeEscape
  | extraData
  | byteOrderMark
deriving DecidableEq

def Complaint.message : Complaint → String
  | .value => "Expecting value"
  | .name => "Expecting property name enclosed in double quotes"
  | .colon => "Expecting ':' delimiter"
  | .comma => "Expecting ',' delimiter"
  | .unterminatedString => "Unterminated string starting at"
  | .controlCharacter => "Invalid control character at"
  | .escape => "Invalid \\escape"
  | .unicodeEscape => "Invalid \\uXXXX escape"
  | .extraData => "Extra data"
  | .byteOrderMark => "Unexpected UTF-8 BOM (decode using utf-8-sig)"

inductive Fault where
  | malformed (complaint : Complaint) (rest : List Char)
  | bareWord (kind : NonFinite) (rest : List Char)
  | longInteger (digits : Nat)
  | deepNesting
deriving DecidableEq

/-- A place in a text: characters before it, and its line and column from 1. -/
structure Position where
  offset : Nat
  line : Nat
  column : Nat
deriving DecidableEq

/-- The position at which `rest` is what is left of `text`. -/
def Position.ofRest (text rest : List Char) : Position :=
  let offset := text.length - rest.length
  let before := text.take offset
  ⟨offset, before.count '\n' + 1,
    (before.reverse.takeWhile fun character => character != '\n').length + 1⟩

def Position.message (position : Position) : String :=
  "line " ++ toString position.line ++ " column " ++ toString position.column ++
    " (char " ++ toString position.offset ++ ")"

end PalletTypes.Json

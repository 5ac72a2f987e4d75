import PalletTypes.Environment

/-!
References in the values of an environment file: `${NAME}` and
`${NAME:-default}`. A reference is replaced once; what replaces it is not read
again. The rules are those of the `dotenv` loader, version 1.2.
-/

namespace PalletTypes.EnvFile

inductive Piece where
  | literal (character : Char)
  | reference (name : List Char) (fallback : Option (List Char))
deriving DecidableEq

def isNamePart (character : Char) : Bool :=
  character != '}' && character != ':'

/-- Takes the reference whose opening brace was just passed. -/
def takeReference? (text : List Char) : Option (Piece × List Char) :=
  let name := text.takeWhile isNamePart
  match text.dropWhile isNamePart with
  | '}' :: rest => some (.reference name none, rest)
  | ':' :: '-' :: rest =>
      match rest.dropWhile (· != '}') with
      | '}' :: after => some (.reference name (some (rest.takeWhile (· != '}'))), after)
      | _ => none
  | _ => none

def piecesWithin : (steps : Nat) → List Char → List Piece
  | 0, _ => []
  | _ + 1, [] => []
  | steps + 1, '$' :: '{' :: rest =>
      match takeReference? rest with
      | some (reference, rest) => reference :: piecesWithin steps rest
      | none => .literal '$' :: piecesWithin steps ('{' :: rest)
  | steps + 1, character :: rest => .literal character :: piecesWithin steps rest

/-- The pieces of a value. Every one takes a character at least. -/
def pieces (value : List Char) : List Piece :=
  piecesWithin value.length value

/-- What the lines of a file so far assign, a name without a value included. -/
abbrev Assigned := List (String × Option String)

/-- The text that a piece stands for: the environment goes before earlier lines,
and a name that an earlier line left without a value stands for nothing. -/
def Piece.resolve (environment : Environment) (earlier : Assigned) :
    Piece → List Char
  | .literal character => [character]
  | .reference name fallback =>
      let name := String.ofList name
      match environment.get? name with
      | some value => value.toList
      | none =>
          match Ordered.lookup? name earlier with
          | some value => (value.getD "").toList
          | none => fallback.getD []

def resolve (environment : Environment) (earlier : Assigned) (value : String) :
    String :=
  String.ofList ((pieces value.toList).flatMap (Piece.resolve environment earlier))

end PalletTypes.EnvFile

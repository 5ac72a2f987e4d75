import PalletTypes.Text.Blank

/-!
The lines of an environment file: `NAME=value`, after `export` or not, bare or
in quotes, with comments between and behind them. A line that does not parse is
passed over. A quoted name or value may go on over several lines.

The rules are those of the `dotenv` loader, version 1.2. Older ones have others in
three places. Here a backslash in quotes takes the next character along whatever
it is, so that backslashes before a quote count by pairs; a byte order mark before
the text is dropped; and the white space after an equals sign sets off a comment,
so that an empty value may have one.
-/

namespace PalletTypes.EnvFile

/-- A name and what is assigned to it; without an equals sign, nothing is. -/
structure Binding where
  name : String
  value : Option String
deriving DecidableEq

/-- White space within a line. -/
def isSpace (character : Char) : Bool :=
  isBlank character && character != '\n' && character != '\r'

def skipBlanks (text : List Char) : List Char :=
  text.dropWhile isBlank

def skipSpaces (text : List Char) : List Char :=
  text.dropWhile isSpace

def isLineEnd (character : Char) : Bool :=
  character == '\n' || character == '\r'

def restOfLine (text : List Char) : List Char :=
  text.takeWhile fun character => !isLineEnd character

def afterLine (text : List Char) : List Char :=
  text.dropWhile fun character => !isLineEnd character

def skipLine (text : List Char) : List Char :=
  (afterLine text).drop 1

/-- A text's content up to the closing quote, and what follows it. A backslash
takes the character after it along, so a quote behind one does not close. -/
def takeQuoted (quote : Char) : List Char → Option (List Char × List Char)
  | [] => none
  | '\\' :: character :: rest =>
      (takeQuoted quote rest).map fun (content, rest) =>
        ('\\' :: character :: content, rest)
  | character :: rest =>
      if character = quote then some ([], rest)
      else (takeQuoted quote rest).map fun (content, rest) =>
        (character :: content, rest)

def singleEscape? : Char → Option Char
  | '\\' => some '\\'
  | '\'' => some '\''
  | _ => none

def doubleEscape? : Char → Option Char
  | '\\' => some '\\'
  | '\'' => some '\''
  | '"' => some '"'
  | 'a' => some '\x07'
  | 'b' => some '\x08'
  | 'f' => some '\x0c'
  | 'n' => some '\n'
  | 'r' => some '\r'
  | 't' => some '\t'
  | 'v' => some '\x0b'
  | _ => none

/-- Decodes the escapes there are and leaves other backslashes as they are. -/
def decodeEscapes (escape? : Char → Option Char) : List Char → List Char
  | [] => []
  | '\\' :: letter :: rest =>
      match escape? letter with
      | some character => character :: decodeEscapes escape? rest
      | none => '\\' :: decodeEscapes escape? (letter :: rest)
  | character :: rest => character :: decodeEscapes escape? rest

/-- A bare value without the comment that white space sets off from it. -/
def dropComment : List Char → List Char
  | [] => []
  | character :: rest =>
      if isBlank character ∧ (skipBlanks rest).head? = some '#' then []
      else character :: dropComment rest

def trimEnd (text : List Char) : List Char :=
  (text.reverse.dropWhile isBlank).reverse

def skipExport (text : List Char) : List Char :=
  match text with
  | 'e' :: 'x' :: 'p' :: 'o' :: 'r' :: 't' :: space :: rest =>
      if isSpace space then skipSpaces rest else text
  | _ => text

/-- What a step of reading a binding takes from the text. A step that fails
leaves the text where it failed. -/
abbrev Step (α : Type) := Except (List Char) (α × List Char)

def isBareName (character : Char) : Bool :=
  character != '=' && character != '#' && !isBlank character

def takeName (text : List Char) : Step (Option (List Char)) :=
  match text with
  | '#' :: _ => .ok (none, text)
  | '\'' :: rest =>
      let name := rest.takeWhile (· != '\'')
      match name, rest.dropWhile (· != '\'') with
      | _ :: _, _ :: rest => .ok (some name, rest)
      | _, _ => .error text
  | _ =>
      match text.takeWhile isBareName with
      | [] => .error text
      | name => .ok (some name, text.dropWhile isBareName)

/-- A bare value is what is left of its line, without the comment and the white
space around it. The white space after the equals sign sets off a comment too,
so an empty value may have one. -/
def bareValue (text : List Char) : List Char :=
  trimEnd (skipSpaces (dropComment (restOfLine text)))

def takeValue (text : List Char) : Step (List Char) :=
  match skipSpaces text with
  | '\'' :: rest =>
      match takeQuoted '\'' rest with
      | some (content, rest) => .ok (decodeEscapes singleEscape? content, rest)
      | none => .error ('\'' :: rest)
  | '"' :: rest =>
      match takeQuoted '"' rest with
      | some (content, rest) => .ok (decodeEscapes doubleEscape? content, rest)
      | none => .error ('"' :: rest)
  | _ => .ok (bareValue text, afterLine text)

def takeAssigned (text : List Char) : Step (Option (List Char)) :=
  match text with
  | '=' :: rest => (takeValue rest).map fun (value, rest) => (some value, rest)
  | _ => .ok (none, text)

def skipComment (text : List Char) : List Char :=
  match skipSpaces text with
  | '#' :: rest => afterLine rest
  | _ => text

def takeLineEnd (text : List Char) : Except (List Char) (List Char) :=
  match skipSpaces text with
  | [] => .ok []
  | '\r' :: '\n' :: rest => .ok rest
  | character :: rest => if isLineEnd character then .ok rest else .error text

def takeBinding (text : List Char) : Step (Option Binding) :=
  match takeName (skipExport text) with
  | .error stuck => .error stuck
  | .ok (name, afterName) =>
      match takeAssigned (skipSpaces afterName) with
      | .error stuck => .error stuck
      | .ok (value, afterValue) =>
          (takeLineEnd (skipComment afterValue)).map fun rest =>
            (name.map fun name =>
              ⟨String.ofList name, value.map String.ofList⟩, rest)

def takeNext (text : List Char) : Option Binding × List Char :=
  match skipBlanks text with
  | [] => (none, [])
  | start =>
      match takeBinding start with
      | .ok (binding, rest) => (binding, rest)
      | .error stuck => (none, skipLine stuck)

def bindingsWithin : (steps : Nat) → List Char → List Binding
  | 0, _ => []
  | _ + 1, [] => []
  | steps + 1, text =>
      let (binding, rest) := takeNext text
      binding.toList ++ bindingsWithin steps rest

/-- A byte order mark before a text is no part of it. -/
def skipByteOrderMark : List Char → List Char
  | '\uFEFF' :: text => text
  | text => text

/-- The bindings of a text in order. Every step takes a character at least. -/
def bindings (text : List Char) : List Binding :=
  bindingsWithin text.length (skipByteOrderMark text)

end PalletTypes.EnvFile

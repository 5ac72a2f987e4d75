import PalletTypes.Text.DecimalDigit

/-!
Arguments of a command line by their shape: an option, with text attached to it
or not, or plain text.
-/

namespace PalletTypes

inductive Flag where
  | help
  | check
  | verbose
deriving DecidableEq

inductive Slot where
  | root
  | output
deriving DecidableEq

inductive Switch where
  | flag (flag : Flag)
  | slot (slot : Slot)
deriving DecidableEq

namespace Switch

def all : List Switch :=
  [.flag .help, .slot .root, .slot .output, .flag .check, .flag .verbose]

def letter? : Switch → Option Char
  | .flag .help => some 'h'
  | .slot .output => some 'o'
  | .flag .verbose => some 'v'
  | .slot .root | .flag .check => none

def longName : Switch → String
  | .flag .help => "--help"
  | .slot .root => "--root"
  | .slot .output => "--output"
  | .flag .check => "--check"
  | .flag .verbose => "--verbose"

def displayName (switch : Switch) : String :=
  match switch.letter? with
  | some letter => "-" ++ letter.toString ++ "/" ++ switch.longName
  | none => switch.longName

def ofLetter? (letter : Char) : Option Switch :=
  all.find? fun switch => switch.letter? = some letter

def beginningWith (text : List Char) : List Switch :=
  all.filter fun switch => text.isPrefixOf switch.longName.toList

end Switch

/-- An argument by its shape. What is attached to an option spelled with one
letter may be a value or the letters of further options. -/
inductive Argument where
  | plain (text : List Char)
  | separator
  | unknown (text : List Char)
  | long (switch : Switch) (attached : Option (List Char))
  | short (switch : Switch) (attached : Option (List Char))
deriving DecidableEq

inductive UsageFault where
  | ambiguous (text : List Char) (matching : List Switch)
  | valueMissing (slot : Slot)
  | valueIgnored (flag : Flag) (value : List Char)
  | unrecognized (texts : List (List Char))
deriving DecidableEq

namespace Argument

/-- The text of an argument that is no option. -/
def text : Argument → List Char
  | .separator => ['-', '-']
  | .plain text | .unknown text => text
  | .long _ _ | .short _ _ => []

def isFraction : List Char → Bool
  | '.' :: digits => digits ≠ [] ∧ digits.all isDecimalDigit
  | _ => false

/-- Whether a text is a minus sign and a decimal number. One line feed may end
it. -/
def isNegativeNumber : List Char → Bool
  | '-' :: number =>
      let number := if number.getLast? = some '\n' then number.dropLast else number
      (number ≠ [] ∧ number.all isDecimalDigit) ∨
        isFraction (number.dropWhile isDecimalDigit)
  | _ => false

def splitAtEquals (text : List Char) : List Char × Option (List Char) :=
  match text.dropWhile (· != '=') with
  | [] => (text, none)
  | _ :: value => (text.takeWhile (· != '='), some value)

/-- Any beginning of a long name that no other one shares will do. -/
def classifyLong (text : List Char) : Except UsageFault Argument :=
  let (name, attached) := splitAtEquals text
  match Switch.beginningWith name with
  | [switch] => .ok (.long switch attached)
  | [] => .ok (if ' ' ∈ text then .plain text else .unknown text)
  | matching => .error (.ambiguous text matching)

/-- What is attached to a letter; an equals sign between them does not count. -/
def attachedTo : List Char → Option (List Char)
  | [] => none
  | '=' :: value => some value
  | attached => some attached

def classifyShort (text : List Char) (letter : Char) (rest : List Char) : Argument :=
  match Switch.ofLetter? letter with
  | some switch => .short switch (attachedTo rest)
  | none =>
      if isNegativeNumber text ∨ ' ' ∈ text then .plain text else .unknown text

def classify : List Char → Except UsageFault Argument
  | ['-', '-'] => .ok .separator
  | '-' :: '-' :: rest => classifyLong ('-' :: '-' :: rest)
  | '-' :: letter :: rest => .ok (classifyShort ('-' :: letter :: rest) letter rest)
  | text => .ok (.plain text)

/-- Tells what the arguments of a command line are. After the first separator
all are plain. -/
def classifyAll : List (List Char) → Except UsageFault (List Argument)
  | [] => .ok []
  | text :: texts =>
      match classify text with
      | .error fault => .error fault
      | .ok .separator => .ok (.separator :: texts.map .plain)
      | .ok argument => (classifyAll texts).map (argument :: ·)

end Argument

end PalletTypes

import PalletTypes.Text.CodePoint
import PalletTypes.Text.Printable

/-!
Quoted form of a text, for messages. It fits on one line and shows every code
point: what cannot be printed is escaped by its number.
-/

namespace PalletTypes.Quoted

/-- Single quotes, unless the text holds some and no double quote. -/
def quoteFor (text : Text) : Char :=
  if .scalar '\'' ∈ text ∧ .scalar '"' ∉ text then '"' else '\''

def escapeNumber (number : Nat) : List Char :=
  if number < 0x100 then '\\' :: 'x' :: hexDigits 2 number
  else if number < 0x10000 then '\\' :: 'u' :: hexDigits 4 number
  else '\\' :: 'U' :: hexDigits 8 number

def escape (quote : Char) : CodePoint → List Char
  | .surrogate half => escapeNumber half.value
  | .scalar character =>
      if character = quote ∨ character = '\\' then ['\\', character]
      else if character = '\n' then ['\\', 'n']
      else if character = '\r' then ['\\', 'r']
      else if character = '\t' then ['\\', 't']
      else if isPrintable character then [character]
      else escapeNumber character.toNat

def quote (text : Text) : List Char :=
  quoteFor text :: text.flatMap (escape (quoteFor text)) ++ [quoteFor text]

end PalletTypes.Quoted

namespace PalletTypes

def Text.quoted (text : Text) : String :=
  String.ofList (Quoted.quote text)

end PalletTypes

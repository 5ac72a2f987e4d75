import PalletTypes.Json.Fault
import PalletTypes.Text.CodePoint

/-!
String literals, read from after the opening quote. Two escapes in a row that
name a high and a low surrogate make one character.
-/

namespace PalletTypes.Json.StringLiteral

def escaped? : Char → Option Char
  | '"' => some '"'
  | '\\' => some '\\'
  | '/' => some '/'
  | 'b' => some '\x08'
  | 'f' => some '\x0c'
  | 'n' => some '\n'
  | 'r' => some '\r'
  | 't' => some '\t'
  | _ => none

def unit? (first second third fourth : Char) : Option Nat :=
  match hexDigit? first, hexDigit? second, hexDigit? third, hexDigit? fourth with
  | some first, some second, some third, some fourth =>
      some (first * 4096 + second * 256 + third * 16 + fourth)
  | _, _, _, _ => none

/-- Puts the code point of a unit before those read, the last one first. A low
surrogate joins a high one: only escapes yield surrogates, so the high one was
named just before. -/
def pushUnit (unit : Nat) : Text → Text
  | .surrogate high :: done =>
      if high.value < 0xDC00 ∧ 0xDC00 ≤ unit ∧ unit < 0xE000 then
        .scalar (Char.ofNat
          (0x10000 + (high.value - 0xD800) * 0x400 + (unit - 0xDC00))) :: done
      else CodePoint.ofUnit unit :: .surrogate high :: done
  | done => CodePoint.ofUnit unit :: done

/-- Reads up to the closing quote. `opening` is the text from the opening quote
on, `done` what is read so far, the last code point first. An escape by number
must leave some text for the closing quote. -/
def read (opening : List Char) (done : Text) :
    List Char → Except Fault (Text × List Char)
  | [] => .error (.malformed .unterminatedString opening)
  | '"' :: rest => .ok (done.reverse, rest)
  | ['\\'] => .error (.malformed .unterminatedString opening)
  | '\\' :: 'u' :: first :: second :: third :: fourth :: next :: rest =>
      match unit? first second third fourth with
      | none => .error (.malformed .unicodeEscape
          ('u' :: first :: second :: third :: fourth :: next :: rest))
      | some unit => read opening (pushUnit unit done) (next :: rest)
  | '\\' :: 'u' :: rest => .error (.malformed .unicodeEscape ('u' :: rest))
  | '\\' :: letter :: rest =>
      match escaped? letter with
      | none => .error (.malformed .escape ('\\' :: letter :: rest))
      | some character => read opening (.scalar character :: done) rest
  | character :: rest =>
      if character.toNat < 0x20 then
        .error (.malformed .controlCharacter (character :: rest))
      else read opening (.scalar character :: done) rest

theorem rest_length_lt {opening text rest : List Char} {done value : Text}
    (result : read opening done text = .ok (value, rest)) :
    rest.length < text.length := by
  fun_induction read opening done text <;>
    simp_all <;> try omega

end PalletTypes.Json.StringLiteral

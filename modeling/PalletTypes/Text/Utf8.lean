import PalletTypes.Text.CodePoint

/-!
UTF-8, read strictly and written. Reading refuses surrogates, overlong forms
and numbers above U+10FFFF, and says which bytes it refuses and why; writing
refuses the first run of surrogates.
-/

namespace PalletTypes

abbrev Bytes := List UInt8

namespace Utf8

def continuation (number : Nat) : UInt8 :=
  (0x80 + number % 64).toUInt8

def encodeChar (character : Char) : Bytes :=
  let number := character.toNat
  if number < 0x80 then [number.toUInt8]
  else if number < 0x800 then
    [(0xC0 + number / 64).toUInt8, continuation number]
  else if number < 0x10000 then
    [(0xE0 + number / 4096).toUInt8, continuation (number / 64),
      continuation number]
  else
    [(0xF0 + number / 262144).toUInt8, continuation (number / 4096),
      continuation (number / 64), continuation number]

def encode (characters : List Char) : Bytes :=
  characters.flatMap encodeChar

structure Range where
  low : UInt8
  high : UInt8

def Range.contains (range : Range) (byte : UInt8) : Bool :=
  decide (range.low ≤ byte) && decide (byte ≤ range.high)

def Range.tail : Range := ⟨0x80, 0xBF⟩

/-- What a lead byte adds to the number of its character, and the ranges of the
bytes that must follow. The first range keeps out overlong forms, surrogates
and numbers above U+10FFFF. -/
def lead? (byte : UInt8) : Option (Nat × List Range) :=
  let lead := byte.toNat
  if lead < 0x80 then some (lead, [])
  else if lead < 0xC2 then none
  else if lead < 0xE0 then some (lead - 0xC0, [.tail])
  else if lead = 0xE0 then some (0, [⟨0xA0, 0xBF⟩, .tail])
  else if lead = 0xED then some (13, [⟨0x80, 0x9F⟩, .tail])
  else if lead < 0xF0 then some (lead - 0xE0, [.tail, .tail])
  else if lead = 0xF0 then some (0, [⟨0x90, 0xBF⟩, .tail, .tail])
  else if lead < 0xF4 then some (lead - 0xF0, [.tail, .tail, .tail])
  else if lead = 0xF4 then some (4, [⟨0x80, 0x8F⟩, .tail, .tail])
  else none

inductive Reason where
  | startByte
  | continuationByte
  | endOfData
deriving DecidableEq

def Reason.message : Reason → String
  | .startByte => "invalid start byte"
  | .continuationByte => "invalid continuation byte"
  | .endOfData => "unexpected end of data"

structure Fault where
  start : Nat
  bytes : Bytes
  reason : Reason
deriving DecidableEq

def Fault.message (fault : Fault) : String :=
  let bad :=
    match fault.bytes with
    | [byte] => "byte 0x" ++ String.ofList (hexDigits 2 byte.toNat) ++
        " in position " ++ toString fault.start
    | bytes => "bytes in position " ++ toString fault.start ++ "-" ++
        toString (fault.start + bytes.length - 1)
  "'utf-8' codec can't decode " ++ bad ++ ": " ++ fault.reason.message

/-- The characters read so far, the last one first, and the character that has
begun at `start`: its bytes, its number so far and the ranges still owed. -/
structure Progress where
  done : List Char
  start : Nat
  bytes : Bytes
  number : Nat
  owed : List Range

namespace Progress

def initial : Progress := ⟨[], 0, [], 0, []⟩

def advance (progress : Progress) (byte : UInt8) (number : Nat)
    (owed : List Range) : Progress :=
  match owed with
  | [] => ⟨Char.ofNat number :: progress.done,
      progress.start + progress.bytes.length + 1, [], 0, []⟩
  | owed => { progress with bytes := progress.bytes ++ [byte], number, owed }

end Progress

def decodeFrom (progress : Progress) : Bytes → Except Fault (List Char)
  | [] =>
      match progress.owed with
      | [] => .ok progress.done.reverse
      | _ :: _ => .error ⟨progress.start, progress.bytes, .endOfData⟩
  | byte :: rest =>
      match progress.owed with
      | [] =>
          match lead? byte with
          | none => .error ⟨progress.start, [byte], .startByte⟩
          | some (number, owed) =>
              decodeFrom (progress.advance byte number owed) rest
      | range :: owed =>
          if range.contains byte then
            decodeFrom (progress.advance byte
              (progress.number * 64 + byte.toNat % 64) owed) rest
          else .error ⟨progress.start, progress.bytes, .continuationByte⟩

def decode (bytes : Bytes) : Except Fault (List Char) :=
  decodeFrom .initial bytes

/-- Surrogates that stand together in a text, none before or after them. -/
structure SurrogateRun where
  start : Nat
  first : Surrogate
  length : Nat
deriving DecidableEq

def SurrogateRun.message (run : SurrogateRun) : String :=
  let bad :=
    if run.length = 1 then
      "character '\\u" ++ String.ofList (hexDigits 4 run.first.value) ++
        "' in position " ++ toString run.start
    else
      "characters in position " ++ toString run.start ++ "-" ++
        toString (run.start + run.length - 1)
  "'utf-8' codec can't encode " ++ bad ++ ": surrogates not allowed"

def firstRunFrom? (position : Nat) : Text → Option SurrogateRun
  | [] => none
  | .scalar _ :: rest => firstRunFrom? (position + 1) rest
  | .surrogate half :: rest =>
      some ⟨position, half, (rest.takeWhile CodePoint.isSurrogate).length + 1⟩

end Utf8

def Text.encode (text : Text) : Except Utf8.SurrogateRun Bytes :=
  match Utf8.firstRunFrom? 0 text with
  | some run => .error run
  | none => .ok (Utf8.encode text.characters)

end PalletTypes

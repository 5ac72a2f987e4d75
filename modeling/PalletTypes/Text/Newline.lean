/-!
Line ends. A carriage return, alone or with the line feed after it, is read as
one line feed.
-/

namespace PalletTypes.Newline

def normalizeOnto (done : List Char) : List Char → List Char
  | [] => done.reverse
  | '\r' :: '\n' :: rest => normalizeOnto ('\n' :: done) rest
  | '\r' :: rest => normalizeOnto ('\n' :: done) rest
  | character :: rest => normalizeOnto (character :: done) rest

def normalize (text : List Char) : List Char :=
  normalizeOnto [] text

end PalletTypes.Newline

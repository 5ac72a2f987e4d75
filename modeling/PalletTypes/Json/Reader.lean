import PalletTypes.Json.Number
import PalletTypes.Json.StringLiteral
import PalletTypes.Ordered

/-!
Reading JSON. Every step says what it read and what is left of the text, which
is shorter. The depth counts the containers that may still be opened; the first
fault in the text is the one reported.
-/

namespace PalletTypes.Json

/-- A value read from the front of a text, and the rest of the text, which is
shorter than `bound`. -/
structure Taken (α : Type) (bound : Nat) where
  value : α
  rest : List Char
  shorter : rest.length < bound

def depthLimit : Nat := 990

/-- What the bare words for numbers that are not finite are read as; none where they are
refused. -/
abbrev Dialect := NonFinite → Option Value

def Dialect.strict : Dialect := fun _ => none

def isSpace (character : Char) : Bool :=
  character == ' ' || character == '\t' || character == '\n' || character == '\r'

def skipSpace (text : List Char) : List Char :=
  text.dropWhile isSpace

theorem skipSpace_length_le (text : List Char) :
    (skipSpace text).length ≤ text.length :=
  (List.dropWhile_sublist isSpace).length_le

private theorem length_lt_of_skipSpace {text rest : List Char} {mark : Char}
    (skipped : skipSpace text = mark :: rest) : rest.length < text.length := by
  have bound := skipSpace_length_le text
  rw [skipped, List.length_cons] at bound
  exact bound

abbrev ItemReader := (text : List Char) → Except Fault (Taken Value text.length)

/-- Reads the items of an array from the first one on. `done` holds those read,
the last one first. -/
def readItems (readItem : ItemReader) (bound : Nat) (done : List Value)
    (text : List Char) (within : text.length ≤ bound) :
    Except Fault (Taken (List Value) bound) :=
  match readItem text with
  | .error fault => .error fault
  | .ok item =>
      match separator : skipSpace item.rest with
      | ',' :: rest =>
          have := length_lt_of_skipSpace separator
          have := skipSpace_length_le rest
          have := item.shorter
          readItems readItem bound (item.value :: done) (skipSpace rest) (by omega)
      | ']' :: rest =>
          .ok ⟨(item.value :: done).reverse, rest, by
            have := length_lt_of_skipSpace separator
            have := item.shorter
            omega⟩
      | rest => .error (.malformed .comma rest)
termination_by text.length

def readArray (readItem : ItemReader) (text : List Char) :
    Except Fault (Taken (List Value) (text.length + 1)) :=
  match start : skipSpace text with
  | ']' :: rest => .ok ⟨[], rest, by
      have := length_lt_of_skipSpace start
      omega⟩
  | _ => readItems readItem (text.length + 1) [] (skipSpace text) (by
      have := skipSpace_length_le text
      omega)

/-- Reads the members of an object from the first name on. A name that is
there already keeps its place and takes the new value. -/
def readMembers (readItem : ItemReader) (bound : Nat) (done : Members)
    (text : List Char) :
    (within : text.length ≤ bound) → Except Fault (Taken Members bound) :=
  match text with
  | '"' :: afterQuote => fun within =>
      match name : StringLiteral.read ('"' :: afterQuote) [] afterQuote with
      | .error fault => .error fault
      | .ok (key, afterName) =>
          match colon : skipSpace afterName with
          | ':' :: afterColon =>
              match readItem (skipSpace afterColon) with
              | .error fault => .error fault
              | .ok item =>
                  have := StringLiteral.rest_length_lt name
                  have := length_lt_of_skipSpace colon
                  have := skipSpace_length_le afterColon
                  have := item.shorter
                  have : (afterQuote.length + 1) ≤ bound := within
                  match separator : skipSpace item.rest with
                  | ',' :: rest =>
                      have := length_lt_of_skipSpace separator
                      have := skipSpace_length_le rest
                      readMembers readItem bound
                        (Ordered.put key item.value done) (skipSpace rest) (by omega)
                  | '}' :: rest =>
                      .ok ⟨Ordered.put key item.value done, rest, by
                        have := length_lt_of_skipSpace separator
                        omega⟩
                  | rest => .error (.malformed .comma rest)
          | rest => .error (.malformed .colon rest)
  | text => fun _ => .error (.malformed .name text)
termination_by text.length
decreasing_by
  simp_wf
  omega

def readObject (readItem : ItemReader) (text : List Char) :
    Except Fault (Taken Members (text.length + 1)) :=
  match start : skipSpace text with
  | '}' :: rest => .ok ⟨[], rest, by
      have := length_lt_of_skipSpace start
      omega⟩
  | _ => readMembers readItem (text.length + 1) [] (skipSpace text) (by
      have := skipSpace_length_le text
      omega)

def Dialect.readBareWord (dialect : Dialect) (kind : NonFinite)
    (text rest : List Char) : Except Fault (Value × List Char) :=
  match dialect kind with
  | none => .error (.bareWord kind text)
  | some value => .ok (value, rest)

def readNumber (text : List Char) : Except Fault (Value × List Char) :=
  match NumberLiteral.take? text with
  | none => .error (.malformed .value text)
  | some (literal, rest) => literal.value.map fun value => (value, rest)

def readScalar (dialect : Dialect) (text : List Char) :
    Except Fault (Value × List Char) :=
  match text with
  | '"' :: rest => (StringLiteral.read text [] rest).map fun (value, rest) =>
      (.string value, rest)
  | 'n' :: 'u' :: 'l' :: 'l' :: rest => .ok (.null, rest)
  | 't' :: 'r' :: 'u' :: 'e' :: rest => .ok (.bool true, rest)
  | 'f' :: 'a' :: 'l' :: 's' :: 'e' :: rest => .ok (.bool false, rest)
  | 'N' :: 'a' :: 'N' :: rest => dialect.readBareWord .notANumber text rest
  | 'I' :: 'n' :: 'f' :: 'i' :: 'n' :: 'i' :: 't' :: 'y' :: rest =>
      dialect.readBareWord .infinity text rest
  | '-' :: 'I' :: 'n' :: 'f' :: 'i' :: 'n' :: 'i' :: 't' :: 'y' :: rest =>
      dialect.readBareWord .negativeInfinity text rest
  | text => readNumber text

private theorem Dialect.rest_of_readBareWord {dialect : Dialect}
    {kind : NonFinite} {text after rest : List Char} {value : Value}
    (result : dialect.readBareWord kind text after = .ok (value, rest)) :
    rest = after := by
  unfold Dialect.readBareWord at result
  split at result
  · cases result
  · cases result
    rfl

theorem readNumber_length_lt {text rest : List Char} {value : Value}
    (result : readNumber text = .ok (value, rest)) : rest.length < text.length := by
  unfold readNumber at result
  split at result
  · exact absurd result (by simp)
  · rename_i literal after found
    have bound := NumberLiteral.take?_length_lt found
    cases number : literal.value <;> simp_all [Except.map]

theorem readScalar_length_lt {dialect : Dialect} {text rest : List Char}
    {value : Value} (result : readScalar dialect text = .ok (value, rest)) :
    rest.length < text.length := by
  revert result
  fun_cases readScalar dialect text with
  | case1 afterQuote =>
      intro result
      cases literal : StringLiteral.read ('"' :: afterQuote) [] afterQuote with
      | error fault => simp [literal, Except.map] at result
      | ok pair =>
          have bound := StringLiteral.rest_length_lt literal
          simp only [literal, Except.map, Except.ok.injEq, Prod.mk.injEq] at result
          rw [← result.2, List.length_cons]
          omega
  | case2 | case3 | case4 =>
      intro result
      simp only [Except.ok.injEq, Prod.mk.injEq] at result
      simp only [result.2, List.length_cons]
      omega
  | case5 | case6 | case7 =>
      intro result
      rw [Dialect.rest_of_readBareWord result]
      simp only [List.length_cons]
      omega
  | case8 => exact readNumber_length_lt

/-- Reads a value, with `depth` containers left to open. -/
def readValue (dialect : Dialect) (depth : Nat) (text : List Char) :
    Except Fault (Taken Value text.length) :=
  match depth, text with
  | 0, '[' :: _ => .error .deepNesting
  | 0, '{' :: _ => .error .deepNesting
  | depth + 1, '[' :: rest =>
      (readArray (readValue dialect depth) rest).map fun taken =>
        ⟨.array taken.value, taken.rest, taken.shorter⟩
  | depth + 1, '{' :: rest =>
      (readObject (readValue dialect depth) rest).map fun taken =>
        ⟨.object taken.value, taken.rest, taken.shorter⟩
  | _, text =>
      match scalar : readScalar dialect text with
      | .error fault => .error fault
      | .ok (value, rest) => .ok ⟨value, rest, readScalar_length_lt scalar⟩

def read (dialect : Dialect) (text : List Char) : Except Fault Value :=
  match text with
  | '\uFEFF' :: _ => .error (.malformed .byteOrderMark text)
  | _ =>
      match readValue dialect depthLimit (skipSpace text) with
      | .error fault => .error fault
      | .ok taken =>
          match skipSpace taken.rest with
          | [] => .ok taken.value
          | rest => .error (.malformed .extraData rest)

end PalletTypes.Json

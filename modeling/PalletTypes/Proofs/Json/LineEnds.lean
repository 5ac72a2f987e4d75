import PalletTypes.Proofs.Json.Number
import PalletTypes.Proofs.Json.Parts
import PalletTypes.Proofs.Json.StringLiteral
import PalletTypes.Proofs.Text.Newline

/-!
Line ends do not matter to the reader. Run on a text and on the text with its line
ends turned, every step comes to the same value or to the same fault, and what is left
in the one run is, with its line ends turned, what is left in the other.
-/

namespace PalletTypes.Json

open Newline

def Fault.normalize : Fault → Fault
  | .malformed complaint rest => .malformed complaint (Newline.normalize rest)
  | .bareWord kind rest => .bareWord kind (Newline.normalize rest)
  | .longInteger digits => .longInteger digits
  | .deepNesting => .deepNesting

variable {α : Type}

/-- What a step comes to, with the line ends turned in what is left of the text. -/
def normalizeRest (result : Except Fault (α × List Char)) :
    Except Fault (α × List Char) :=
  match result with
  | .error fault => .error fault.normalize
  | .ok (value, rest) => .ok (value, normalize rest)

theorem skipSpace_normalize (text : List Char) :
    skipSpace (normalize text) = normalize (skipSpace text) :=
  dropWhile_normalize rfl text

namespace NumberLiteral

theorem leadingDigits_normalize (text : List Char) :
    leadingDigits (normalize text) = leadingDigits text :=
  takeWhile_normalize rfl rfl text

theorem afterDigits_normalize (text : List Char) :
    afterDigits (normalize text) = normalize (afterDigits text) :=
  dropWhile_normalize rfl text

theorem takeSign_normalize (text : List Char) :
    takeSign (normalize text) = ((takeSign text).1, normalize (takeSign text).2) := by
  fun_cases takeSign text with
  | case1 rest =>
      rw [normalize_cons (by decide)]
      rfl
  | case2 text noSign =>
      rw [takeSign]
      exact normalize_ne_append ['-'] (by decide) noSign

theorem takeWhole_normalize (text : List Char) :
    takeWhole (normalize text) = ((takeWhole text).1, normalize (takeWhole text).2) := by
  fun_cases takeWhole text with
  | case1 rest =>
      rw [normalize_cons (by decide)]
      rfl
  | case2 text noZero =>
      rw [takeWhole, leadingDigits_normalize, afterDigits_normalize]
      exact normalize_ne_append ['0'] (by decide) noZero

theorem takeFraction_normalize (text : List Char) :
    takeFraction (normalize text) =
      ((takeFraction text).1, normalize (takeFraction text).2) := by
  fun_cases takeFraction text with
  | case1 rest noDigits =>
      rw [normalize_cons (by decide), takeFraction, leadingDigits_normalize,
        if_pos noDigits]
  | case2 rest digits =>
      rw [normalize_cons (by decide), takeFraction, leadingDigits_normalize,
        if_neg digits, afterDigits_normalize]
  | case3 text noPoint =>
      rw [takeFraction]
      exact normalize_ne_append ['.'] (by decide) noPoint

theorem takeExponentSign_normalize (text : List Char) :
    takeExponentSign (normalize text) =
      ((takeExponentSign text).1, normalize (takeExponentSign text).2) := by
  fun_cases takeExponentSign text with
  | case1 rest =>
      rw [normalize_cons (by decide)]
      rfl
  | case2 rest =>
      rw [normalize_cons (by decide)]
      rfl
  | case3 text noMinus noPlus =>
      rw [takeExponentSign]
      · exact normalize_ne_append ['-'] (by decide) noMinus
      · exact normalize_ne_append ['+'] (by decide) noPlus

theorem takeExponent_normalize (text : List Char) :
    takeExponent (normalize text) =
      ((takeExponent text).1, normalize (takeExponent text).2) := by
  induction text using Newline.induction_on with
  | nil => rfl
  | pair rest => simp [normalize_pair, takeExponent]
  | lone rest alone => simp [normalize_return alone, takeExponent]
  | other mark rest noReturn =>
      rw [normalize_cons noReturn]
      simp only [takeExponent, takeExponentSign_normalize, leadingDigits_normalize,
        afterDigits_normalize]
      split
      · rfl
      · rw [normalize_cons noReturn]

theorem take?_normalize (text : List Char) :
    take? (normalize text) =
      (take? text).map fun (literal, rest) => (literal, normalize rest) := by
  simp only [take?, takeSign_normalize, takeWhole_normalize, takeFraction_normalize,
    takeExponent_normalize]
  split
  · rfl
  · rfl

end NumberLiteral

theorem readNumber_normalize (text : List Char) :
    readNumber (normalize text) = normalizeRest (readNumber text) := by
  rw [readNumber, readNumber, NumberLiteral.take?_normalize]
  cases NumberLiteral.take? text with
  | none => rfl
  | some pair =>
      obtain ⟨literal, rest⟩ := pair
      simp only [Option.map_some]
      cases number : literal.value with
      | error fault =>
          rw [NumberLiteral.fault_of_value number]
          rfl
      | ok value => rfl

namespace StringLiteral

theorem takeUnit?_normalize (text : List Char) :
    takeUnit? (normalize text) =
      (takeUnit? text).map fun (unit, rest) => (unit, normalize rest) := by
  cases taken : takeUnit? text with
  | some pair =>
      obtain ⟨unit, rest⟩ := pair
      obtain ⟨first, second, third, fourth, rfl, named, more⟩ :=
        takeUnit?_eq_some_iff.mp taken
      have noReturn : '\r' ∉ [first, second, third, fourth] :=
        not_mem_of_unit? named rfl
      refine takeUnit?_eq_some_iff.mpr ⟨first, second, third, fourth, ?_, named, ?_⟩
      · exact normalize_append _ noReturn rest
      · exact mt normalize_eq_nil_iff.mp more
  | none =>
      cases takenAfter : takeUnit? (normalize text) with
      | none => rfl
      | some pair =>
          obtain ⟨unit, rest⟩ := pair
          obtain ⟨first, second, third, fourth, turned, named, more⟩ :=
            takeUnit?_eq_some_iff.mp takenAfter
          have noFeed : '\n' ∉ [first, second, third, fourth] :=
            not_mem_of_unit? named rfl
          obtain ⟨after, rfl, rfl⟩ := of_normalize_append _ noFeed turned
          have found : takeUnit? ([first, second, third, fourth] ++ after) =
              some (unit, after) :=
            takeUnit?_eq_some_iff.mpr ⟨first, second, third, fourth, rfl, named,
              mt normalize_eq_nil_iff.mpr more⟩
          rw [found] at taken
          cases taken

theorem read_unnamed_normalize (opening : List Char) (done : Text) {rest : List Char}
    (unnamed : takeUnit? rest = none) :
    read opening done (normalize ('\\' :: 'u' :: rest)) =
      .error (.malformed .unicodeEscape (normalize ('u' :: rest))) := by
  rw [normalize_cons (by decide), normalize_cons (by decide), read_number,
    takeUnit?_normalize, unnamed]
  rfl

theorem read_unknown_normalize (opening : List Char) (done : Text) {letter : Char}
    (noNumber : letter ≠ 'u') (unknown : escaped? letter = none) (rest : List Char) :
    read opening done (normalize ('\\' :: letter :: rest)) =
      .error (.malformed .escape (normalize ('\\' :: letter :: rest))) := by
  obtain ⟨first, after, start, turned⟩ := normalize_first letter rest
  have stillUnknown : first ≠ 'u' ∧ escaped? first = none := by
    rcases turned with rfl | ⟨_, rfl⟩
    · exact ⟨noNumber, unknown⟩
    · exact ⟨by decide, rfl⟩
  rw [normalize_cons (by decide), start, read_letter stillUnknown.1, stillUnknown.2]

theorem read_control_normalize (opening : List Char) (done : Text) {character : Char}
    (control : character.toNat < 0x20) (rest : List Char) :
    read opening done (normalize (character :: rest)) =
      .error (.malformed .controlCharacter (normalize (character :: rest))) := by
  obtain ⟨first, after, start, turned⟩ := normalize_first character rest
  have stillControl : first.toNat < 0x20 := by
    rcases turned with rfl | ⟨_, rfl⟩
    · exact control
    · decide
  have noQuote : first ≠ '"' := by
    rintro rfl
    exact absurd stillControl (by decide)
  have noBackslash : first ≠ '\\' := by
    rintro rfl
    exact absurd stillControl (by decide)
  rw [start, read_character noQuote noBackslash, if_pos stillControl]

theorem read_normalize (opening : List Char) (done : Text) (text : List Char) :
    read (normalize opening) done (normalize text) =
      normalizeRest (read opening done text) := by
  fun_induction read opening done text with
  | case1 done => rfl
  | case2 done rest =>
      rw [normalize_cons (by decide)]
      rfl
  | case3 done => rfl
  | case4 done first second third fourth next rest unnamed =>
      apply read_unnamed_normalize
      simp only [takeUnit?, unnamed, Option.map_none]
  | case5 done first second third fourth next rest unit named induction =>
      rw [normalize_cons (by decide), normalize_cons (by decide), read_number,
        takeUnit?_normalize]
      simp only [takeUnit?, named, Option.map_some]
      exact induction
  | case6 done rest short =>
      apply read_unnamed_normalize
      fun_cases takeUnit? rest with
      | case1 first second third fourth next rest =>
          exact absurd rfl (short first second third fourth next rest)
      | case2 => rfl
  | case7 done letter rest alone noNumber unknown =>
      exact read_unknown_normalize _ done noNumber unknown rest
  | case8 done letter rest alone noNumber character known induction =>
      have noReturn : letter ≠ '\r' := by
        rintro rfl
        cases known
      rw [normalize_cons (by decide), normalize_cons noReturn, read_letter noNumber,
        known]
      exact induction
  | case9 done character rest noQuote alone noNumber noUnit noEscape control =>
      exact read_control_normalize _ done control rest
  | case10 done character rest noQuote alone noNumber noUnit noEscape printable
      induction =>
      have noReturn : character ≠ '\r' := by
        rintro rfl
        exact absurd (by decide) printable
      have noBackslash : character ≠ '\\' := by
        intro isBackslash
        cases rest with
        | nil => exact alone isBackslash rfl
        | cons letter rest => exact noEscape letter rest isBackslash rfl
      rw [normalize_cons noReturn, read_character noQuote noBackslash, if_neg printable]
      exact induction

end StringLiteral

theorem readBareWord_normalize (dialect : Dialect) (kind : NonFinite)
    (text rest : List Char) :
    dialect.readBareWord kind (normalize text) (normalize rest) =
      normalizeRest (dialect.readBareWord kind text rest) := by
  unfold Dialect.readBareWord
  cases dialect kind with
  | none => rfl
  | some value => rfl

theorem readScalar_normalize (dialect : Dialect) (text : List Char) :
    readScalar dialect (normalize text) = normalizeRest (readScalar dialect text) := by
  fun_cases readScalar dialect text with
  | case1 rest =>
      have literal := StringLiteral.read_normalize ('"' :: rest) [] rest
      rw [normalize_cons (by decide)] at literal ⊢
      rw [readScalar, literal]
      cases StringLiteral.read ('"' :: rest) [] rest with
      | error fault => rfl
      | ok pair => rfl
  | case2 rest =>
      exact congrArg (readScalar dialect)
        (normalize_append ['n', 'u', 'l', 'l'] (by decide) rest)
  | case3 rest =>
      exact congrArg (readScalar dialect)
        (normalize_append ['t', 'r', 'u', 'e'] (by decide) rest)
  | case4 rest =>
      exact congrArg (readScalar dialect)
        (normalize_append ['f', 'a', 'l', 's', 'e'] (by decide) rest)
  | case5 rest | case6 rest | case7 rest =>
      rw [← readBareWord_normalize]
      simp [normalize_cons, readScalar]
  | case8 text noQuote noNull noTrue noFalse noNaN noInfinity noNegative =>
      rw [← readNumber_normalize, readScalar]
      · exact normalize_ne_append ['"'] (by decide) noQuote
      · exact normalize_ne_append ['n', 'u', 'l', 'l'] (by decide) noNull
      · exact normalize_ne_append ['t', 'r', 'u', 'e'] (by decide) noTrue
      · exact normalize_ne_append ['f', 'a', 'l', 's', 'e'] (by decide) noFalse
      · exact normalize_ne_append ['N', 'a', 'N'] (by decide) noNaN
      · exact normalize_ne_append ['I', 'n', 'f', 'i', 'n', 'i', 't', 'y'] (by decide)
          noInfinity
      · exact normalize_ne_append ['-', 'I', 'n', 'f', 'i', 'n', 'i', 't', 'y'] (by decide)
          noNegative

/-- The line ends that a reader is given decide nothing but the line ends that it
leaves. -/
def IgnoresLineEnds (readPart : PartReader α) : Prop :=
  ∀ text, readPart (normalize text) = normalizeRest (readPart text)

theorem normalizeRest_map {β : Type} (change : α → β) (result : Except Fault (α × List Char)) :
    normalizeRest (result.map fun (value, rest) => (change value, rest)) =
      (normalizeRest result).map fun (value, rest) => (change value, rest) := by
  cases result with
  | error fault => rfl
  | ok pair => rfl

theorem skipSpace_normalize_eq {text rest : List Char} {mark : Char} (noReturn : mark ≠ '\r')
    (skipped : skipSpace text = mark :: rest) :
    skipSpace (normalize text) = mark :: normalize rest := by
  rw [skipSpace_normalize, skipped, normalize_cons noReturn]

theorem skipSpace_normalize_ne {text : List Char} {mark : Char} (noFeed : mark ≠ '\n')
    (absent : ∀ rest, skipSpace text ≠ mark :: rest) (rest : List Char) :
    skipSpace (normalize text) ≠ mark :: rest := by
  intro skipped
  rw [skipSpace_normalize] at skipped
  obtain ⟨after, same, _⟩ := of_normalize_cons noFeed skipped
  exact absent after same

section Lists

variable {readPart : PartReader α} {close : Char} {text : List Char}
  {parts : Except Fault (List α × List Char)}

theorem IgnoresLineEnds.found (ignores : IgnoresLineEnds readPart) {part : α}
    {after : List Char} (found : readPart text = .ok (part, after)) :
    readPart (normalize text) = .ok (part, normalize after) := by
  rw [ignores text, found]
  rfl

theorem ReadsParts.normalize (ignores : IgnoresLineEnds readPart)
    (noReturn : close ≠ '\r') (noFeed : close ≠ '\n')
    (reads : ReadsParts close readPart text parts) :
    ReadsParts close readPart (normalize text) (normalizeRest parts) := by
  induction reads with
  | @failed text fault found =>
      refine .failed ?_
      rw [ignores text, found]
      rfl
  | more found separated _ induction =>
      rw [normalizeRest_map]
      refine .more (ignores.found found) (skipSpace_normalize_eq (by decide) separated) ?_
      rw [skipSpace_normalize]
      exact induction
  | closed found closed =>
      exact .closed (ignores.found found) (skipSpace_normalize_eq noReturn closed)
  | unseparated found noComma notClosed =>
      have reads := ReadsParts.unseparated (ignores.found found)
        (skipSpace_normalize_ne (by decide) noComma)
        (skipSpace_normalize_ne noFeed notClosed)
      rwa [skipSpace_normalize] at reads

theorem ReadsBody.normalize (ignores : IgnoresLineEnds readPart)
    (noReturn : close ≠ '\r') (noFeed : close ≠ '\n')
    (reads : ReadsBody close readPart text parts) :
    ReadsBody close readPart (normalize text) (normalizeRest parts) := by
  cases reads with
  | empty closed => exact .empty (skipSpace_normalize_eq noReturn closed)
  | filled notClosed reads =>
      refine .filled (skipSpace_normalize_ne noFeed notClosed) ?_
      rw [skipSpace_normalize]
      exact reads.normalize ignores noReturn noFeed

end Lists

theorem readMember_normalize {readItem : PartReader Value} (ignores : IgnoresLineEnds readItem) :
    IgnoresLineEnds (readMember readItem) := by
  intro text
  have literal (afterQuote : List Char) :=
    StringLiteral.read_normalize ('"' :: afterQuote) [] afterQuote
  simp only [normalize_cons (show '"' ≠ '\r' by decide)] at literal
  fun_cases readMember readItem text with
  | case1 afterQuote fault failed =>
      rw [normalize_cons (by decide)]
      simp only [readMember, literal, failed, normalizeRest]
  | case2 afterQuote key afterName name afterColon colon =>
      have colonToo := skipSpace_normalize_eq (by decide) colon
      rw [normalize_cons (by decide), normalizeRest_map, ← ignores, ← skipSpace_normalize]
      simp only [readMember, literal, name, normalizeRest, colonToo]
  | case3 afterQuote key afterName name noColon =>
      have noColonToo := skipSpace_normalize_ne (by decide) noColon
      rw [normalize_cons (by decide)]
      simp only [readMember, literal, name, normalizeRest, Fault.normalize,
        ← skipSpace_normalize]
  | case4 text noQuote =>
      rw [readMember]
      · rfl
      · exact normalize_ne_append ['"'] (by decide) noQuote

section Values

variable {readItem : ItemReader}
  (ignores : IgnoresLineEnds fun text => unbounded (readItem text))
include ignores

theorem readArray_normalize (text : List Char) :
    unbounded (readArray readItem (normalize text)) =
      normalizeRest (unbounded (readArray readItem text)) :=
  (readArray_readsBody readItem (normalize text)).unique (by decide)
    ((readArray_readsBody readItem text).normalize ignores (by decide) (by decide))

theorem readObject_normalize (text : List Char) :
    unbounded (readObject readItem (normalize text)) =
      normalizeRest (unbounded (readObject readItem text)) := by
  obtain ⟨parts, reads, same⟩ := readObject_readsBody readItem text
  obtain ⟨partsToo, readsToo, sameToo⟩ := readObject_readsBody readItem (normalize text)
  have alike := readsToo.unique (by decide)
    (reads.normalize (readMember_normalize ignores) (by decide) (by decide))
  rw [same, sameToo, alike, normalizeRest_map]

end Values

theorem readValue_scalar_normalize (dialect : Dialect) (depth : Nat) {text : List Char}
    (noArray : ∀ rest, text ≠ '[' :: rest) (noObject : ∀ rest, text ≠ '{' :: rest) :
    unbounded (readValue dialect depth (normalize text)) =
      normalizeRest (unbounded (readValue dialect depth text)) := by
  rw [unbounded_readValue_scalar dialect depth noArray noObject, ← readScalar_normalize,
    unbounded_readValue_scalar dialect depth]
  · exact normalize_ne_append ['['] (by decide) noArray
  · exact normalize_ne_append ['{'] (by decide) noObject

theorem readValue_normalize (dialect : Dialect) (depth : Nat) :
    IgnoresLineEnds fun text => unbounded (readValue dialect depth text) := by
  induction depth with
  | zero =>
      intro text
      cases valueStart text with
      | array rest | object rest =>
          rw [normalize_cons (by decide)]
          rfl
      | scalar noArray noObject => exact readValue_scalar_normalize dialect _ noArray noObject
  | succ depth induction =>
      intro text
      cases valueStart text with
      | array rest =>
          rw [normalize_cons (by decide)]
          simp only [unbounded_readValue_array, readArray_normalize induction, normalizeRest_map]
      | object rest =>
          rw [normalize_cons (by decide)]
          simp only [unbounded_readValue_object, readObject_normalize induction, normalizeRest_map]
      | scalar noArray noObject => exact readValue_scalar_normalize dialect _ noArray noObject

theorem read_normalize (dialect : Dialect) (text : List Char) :
    read dialect (normalize text) = (read dialect text).mapError Fault.normalize := by
  by_cases marked : ∃ rest, text = '\uFEFF' :: rest
  · obtain ⟨rest, rfl⟩ := marked
    have turned : normalize ('\uFEFF' :: rest) = '\uFEFF' :: normalize rest :=
      normalize_cons (by decide) rest
    rw [turned, read, read]
    exact congrArg (fun text => Except.error (Fault.malformed .byteOrderMark text))
      turned.symm
  have unmarked : ∀ rest, text ≠ '\uFEFF' :: rest := not_exists.mp marked
  have valueToo : unbounded (readValue dialect depthLimit (normalize (skipSpace text))) =
      normalizeRest (unbounded (readValue dialect depthLimit (skipSpace text))) :=
    readValue_normalize dialect depthLimit (skipSpace text)
  rw [read_unmarked dialect unmarked,
    read_unmarked dialect (normalize_ne_append ['\uFEFF'] (by decide) unmarked),
    skipSpace_normalize, valueToo]
  cases unbounded (readValue dialect depthLimit (skipSpace text)) with
  | error fault => rfl
  | ok pair =>
      simp only [normalizeRest, skipSpace_normalize]
      cases left : skipSpace pair.2 with
      | nil => rfl
      | cons character rest =>
          obtain ⟨first, after, start, _⟩ := normalize_first character rest
          simp only [start]
          exact congrArg (fun text => Except.error (Fault.malformed .extraData text))
            start.symm

end PalletTypes.Json

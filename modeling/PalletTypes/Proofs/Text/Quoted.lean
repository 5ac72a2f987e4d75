import PalletTypes.Proofs.Text.CodePoint
import PalletTypes.Text.Quoted

/-!
Quoted texts. All of their characters can be printed, and no two texts have the same quoted
form: the escape of a code point is read back whatever follows it.
-/

namespace PalletTypes

def IsControl (character : Char) : Prop :=
  character.toNat < 0x20 ∨ 0x7F ≤ character.toNat ∧ character.toNat < 0xA0

/-- The characters that end a line, by any convention. -/
def lineBreaks : List Char :=
  ['\n', '\x0B', '\x0C', '\r', '\x1C', '\x1D', '\x1E', '\x85', '\u2028', '\u2029']

def IsVisible (character : Char) : Prop :=
  0x20 ≤ character.toNat ∧ character.toNat < 0x7F

instance : DecidablePred IsVisible :=
  fun character => inferInstanceAs
    (Decidable (0x20 ≤ character.toNat ∧ character.toNat < 0x7F))

theorem isPrintable_eq_false {low high : Nat} (listed : (low, high) ∈ unprintableRanges)
    {character : Char} (least : low ≤ character.toNat) (greatest : character.toNat ≤ high) :
    isPrintable character = false := by
  rw [isPrintable, Bool.not_eq_false', List.any_eq_true]
  exact ⟨(low, high), listed, by simp [least, greatest]⟩

theorem not_isControl_of_isPrintable {character : Char}
    (printable : isPrintable character = true) : ¬ IsControl character := by
  intro control
  have unprintable : isPrintable character = false := by
    rcases control with low | ⟨least, greatest⟩
    · apply isPrintable_eq_false (.head _) <;> omega
    · apply isPrintable_eq_false (.tail _ (.head _)) <;> omega
  rw [printable] at unprintable
  cases unprintable

theorem not_mem_lineBreaks_of_isPrintable {character : Char}
    (printable : isPrintable character = true) : character ∉ lineBreaks := by
  have unprintable : lineBreaks.all (fun character => !isPrintable character) = true := by
    decide +kernel
  intro member
  have absurdity := List.all_eq_true.mp unprintable character member
  rw [printable] at absurdity
  cases absurdity

theorem isPrintable_of_isVisible {character : Char} (visible : IsVisible character) :
    isPrintable character = true := by
  obtain ⟨least, greatest⟩ := visible
  -- The first range lies below all of them, and the others above.
  have above : (unprintableRanges.drop 1).all (fun range => decide (0x7F ≤ range.1)) =
      true := by
    decide +kernel
  have outside : ∀ range ∈ unprintableRanges,
      character.toNat < range.1 ∨ range.2 < character.toNat := by
    intro range member
    rcases List.mem_cons.mp member with rfl | member
    · exact Or.inr (Nat.lt_of_lt_of_le (by decide) least)
    · have starts := of_decide_eq_true (List.all_eq_true.mp above range member)
      exact Or.inl (Nat.lt_of_lt_of_le greatest starts)
  rw [isPrintable, Bool.not_eq_true', List.any_eq_false]
  intro range member
  have apart := outside range member
  simp only [Bool.and_eq_true, decide_eq_true_eq]
  omega

namespace Quoted

/-- How many digits follow a letter that announces a number. -/
def width? : Char → Option Nat
  | 'x' => some 2
  | 'u' => some 4
  | 'U' => some 8
  | _ => none

def meaning : Char → Char
  | 'n' => '\n'
  | 'r' => '\r'
  | 't' => '\t'
  | letter => letter

/-- Reads the code point that is escaped first, and leaves the rest. -/
def unescape : List Char → Option (CodePoint × List Char)
  | [] => none
  | '\\' :: letter :: rest =>
      match width? letter with
      | some width => some (.ofUnit (ofHexDigits (rest.take width)), rest.drop width)
      | none => some (.scalar (meaning letter), rest)
  | character :: rest => some (.scalar character, rest)

theorem unescape_number {letter : Char} {width : Nat} (numbered : width? letter = some width)
    {codePoint : CodePoint} (fits : codePoint.value < 16 ^ width) (rest : List Char) :
    unescape ('\\' :: letter :: hexDigits width codePoint.value ++ rest) =
      some (codePoint, rest) := by
  simp only [unescape, List.cons_append, numbered,
    List.take_left' (length_hexDigits width codePoint.value),
    List.drop_left' (length_hexDigits width codePoint.value), ofHexDigits_hexDigits,
    Nat.mod_eq_of_lt fits, CodePoint.ofUnit_value]

theorem unescape_letter {letter : Char} (unnumbered : width? letter = none)
    (rest : List Char) :
    unescape ('\\' :: letter :: rest) = some (.scalar (meaning letter), rest) := by
  simp only [unescape, unnumbered]

theorem unescape_character {character : Char} (plain : character ≠ '\\') (rest : List Char) :
    unescape (character :: rest) = some (.scalar character, rest) := by
  rw [unescape]
  exact fun _ _ isBackslash => absurd isBackslash plain

theorem unescape_escapeNumber (codePoint : CodePoint) (rest : List Char) :
    unescape (escapeNumber codePoint.value ++ rest) = some (codePoint, rest) := by
  fun_cases escapeNumber codePoint.value with
  | case1 small => exact unescape_number rfl small rest
  | case2 _ small => exact unescape_number rfl small rest
  | case3 => exact unescape_number rfl (Nat.lt_trans codePoint.value_lt (by decide)) rest

def IsMark (mark : Char) : Prop :=
  mark = '\'' ∨ mark = '"'

theorem isMark_quoteFor (text : Text) : IsMark (quoteFor text) := by
  unfold quoteFor
  split
  · exact Or.inr rfl
  · exact Or.inl rfl

section Mark

variable {mark : Char} (isMark : IsMark mark)
include isMark

theorem unescape_escape (codePoint : CodePoint) (rest : List Char) :
    unescape (escape mark codePoint ++ rest) = some (codePoint, rest) := by
  fun_cases escape mark codePoint with
  | case1 half => exact unescape_escapeNumber (.surrogate half) rest
  | case2 character taken =>
      have itself : width? character = none ∧ meaning character = character := by
        rcases taken with rfl | rfl
        · rcases isMark with rfl | rfl <;> exact ⟨rfl, rfl⟩
        · exact ⟨rfl, rfl⟩
      rw [List.cons_append, List.singleton_append, unescape_letter itself.1, itself.2]
  | case3 | case4 | case5 => rfl
  | case6 character free =>
      exact unescape_character (fun isBackslash => free (Or.inr isBackslash)) rest
  | case7 character => exact unescape_escapeNumber (.scalar character) rest

theorem escape_eq_cons (codePoint : CodePoint) :
    ∃ first rest, escape mark codePoint = first :: rest ∧ first ≠ mark := by
  have backslash : '\\' ≠ mark := by
    rcases isMark with rfl | rfl <;> decide
  have number (number : Nat) :
      ∃ first rest, escapeNumber number = first :: rest ∧ first ≠ mark := by
    fun_cases escapeNumber number <;> exact ⟨_, _, rfl, backslash⟩
  fun_cases escape mark codePoint with
  | case1 | case7 => exact number _
  | case2 | case3 | case4 | case5 => exact ⟨_, _, rfl, backslash⟩
  | case6 character free => exact ⟨_, _, rfl, fun same => free (Or.inl same)⟩

theorem escapes_ne_end (codePoint : CodePoint) (text : Text) :
    (codePoint :: text).flatMap (escape mark) ++ [mark] ≠ [mark] := by
  obtain ⟨first, rest, begins, different⟩ := escape_eq_cons isMark codePoint
  intro same
  rw [List.flatMap_cons, begins] at same
  exact different (List.cons.inj same).1

theorem eq_of_escapes_eq {first second : Text}
    (same : first.flatMap (escape mark) ++ [mark] =
      second.flatMap (escape mark) ++ [mark]) : first = second := by
  induction first generalizing second with
  | nil =>
      cases second with
      | nil => rfl
      | cons other second => exact absurd same.symm (escapes_ne_end isMark other second)
  | cons codePoint first induction =>
      cases second with
      | nil => exact absurd same (escapes_ne_end isMark codePoint first)
      | cons other second =>
          simp only [List.flatMap_cons, List.append_assoc] at same
          have read := congrArg unescape same
          rw [unescape_escape isMark, unescape_escape isMark, Option.some.injEq,
            Prod.mk.injEq] at read
          obtain ⟨rfl, sameRest⟩ := read
          exact congrArg (codePoint :: ·) (induction sameRest)

end Mark

theorem quote_inj {first second : Text} : quote first = quote second ↔ first = second := by
  refine ⟨fun same => ?_, congrArg quote⟩
  obtain ⟨sameMark, sameRest⟩ := List.cons.inj same
  rw [← sameMark] at sameRest
  exact eq_of_escapes_eq (isMark_quoteFor first) sameRest

theorem visible_escapeNumber (number : Nat) :
    ∀ character ∈ escapeNumber number, IsVisible character := by
  have digits {width : Nat} : ∀ character ∈ hexDigits width number, IsVisible character := by
    intro character member
    obtain ⟨digit, small, rfl⟩ := exists_of_mem_hexDigits member
    have visible : ∀ digit < 16, IsVisible (hexDigit digit) := by decide
    exact visible digit small
  fun_cases escapeNumber number <;>
    simpa only [List.forall_mem_cons] using ⟨by decide, by decide, digits⟩

theorem printable_escape {mark : Char} (isMark : IsMark mark) (codePoint : CodePoint) :
    ∀ character ∈ escape mark codePoint, isPrintable character = true := by
  have number (number : Nat) :
      ∀ character ∈ escapeNumber number, isPrintable character = true :=
    fun character member => isPrintable_of_isVisible (visible_escapeNumber number character member)
  have letter {letter : Char} (visible : IsVisible letter) :
      ∀ character ∈ ['\\', letter], isPrintable character = true := by
    exact List.forall_mem_cons.mpr ⟨isPrintable_of_isVisible (by decide),
      List.forall_mem_singleton.mpr (isPrintable_of_isVisible visible)⟩
  fun_cases escape mark codePoint with
  | case1 | case7 => exact number _
  | case2 character taken =>
      apply letter
      rcases taken with rfl | rfl
      · rcases isMark with rfl | rfl <;> decide
      · decide
  | case3 | case4 | case5 => exact letter (by decide)
  | case6 character _ _ _ _ printable => exact List.forall_mem_singleton.mpr printable

theorem printable_quote (text : Text) :
    ∀ character ∈ quote text, isPrintable character = true := by
  have isMark := isMark_quoteFor text
  have mark : isPrintable (quoteFor text) = true := by
    apply isPrintable_of_isVisible
    rcases isMark with same | same <;> rw [same] <;> decide
  intro character member
  rcases List.mem_cons.mp member with rfl | member
  · exact mark
  · rcases List.mem_append.mp member with inside | last
    · obtain ⟨codePoint, _, escaped⟩ := List.mem_flatMap.mp inside
      exact printable_escape isMark codePoint character escaped
    · exact List.mem_singleton.mp last ▸ mark

end Quoted

theorem Text.quoted_inj {first second : Text} :
    first.quoted = second.quoted ↔ first = second := by
  rw [quoted, quoted, String.ofList_inj, Quoted.quote_inj]

end PalletTypes

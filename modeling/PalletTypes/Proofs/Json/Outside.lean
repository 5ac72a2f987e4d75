import PalletTypes.Proofs.Json.Tokens

/-!
What stands outside of string literals, told from the flat text: how many containers are
open there, and what is left of the text without the white space there.
-/

namespace PalletTypes

def CodePoint.isBlank : CodePoint → Bool
  | .scalar character => PalletTypes.isBlank character
  | .surrogate _ => false

def CodePoint.opens (codePoint : CodePoint) : Bool :=
  codePoint = .scalar '[' || codePoint = .scalar '{'

def CodePoint.closes (codePoint : CodePoint) : Bool :=
  codePoint = .scalar ']' || codePoint = .scalar '}'

namespace Json

open Grammar

/-- A surrogate is no quote, no backslash and no bracket. -/
def Scan.next (scan : Scan) : CodePoint → Scan
  | .scalar character => scan.step character
  | .surrogate _ =>
      match scan.place with
      | .escaped => { scan with place := .inString }
      | _ => scan

def Scan.start : Scan := ⟨.outside, 0, 0⟩

def scanText (text : Text) : Scan :=
  text.foldl Scan.next .start

/-- What comes after the text does not stand in a string literal. -/
def Outside (before : Text) : Prop :=
  (scanText before).place = .outside

/-- How many containers the text leaves open. -/
def openedBy (before : Text) : Nat :=
  (scanText before).opened

/-- Leaves out the white space that stands outside of string literals. -/
def strip (scan : Scan) : Text → Text
  | [] => []
  | codePoint :: rest =>
      match scan.place, codePoint.isBlank with
      | .outside, true => strip (scan.next codePoint) rest
      | _, _ => codePoint :: strip (scan.next codePoint) rest

theorem strip_append (scan : Scan) (text rest : Text) :
    strip scan (text ++ rest) = strip scan text ++ strip (text.foldl Scan.next scan) rest := by
  induction text generalizing scan with
  | nil => rfl
  | cons codePoint text induction =>
      rw [List.cons_append, strip, strip, List.foldl_cons, induction]
      split <;> rfl

theorem strip_visible (scan : Scan) {text : Text}
    (visible : ∀ codePoint ∈ text, codePoint.isBlank = false) : strip scan text = text := by
  induction text generalizing scan with
  | nil => rfl
  | cons codePoint text induction =>
      obtain ⟨here, others⟩ := List.forall_mem_cons.mp visible
      rw [strip, here, induction _ others]
      cases scan.place <;> rfl

inductive Inside : Scan → Text → Scan → Prop
  | nil {scan : Scan} : Inside scan [] scan
  | cons {scan last : Scan} {codePoint : CodePoint} {text : Text} :
      scan.place ≠ .outside → Inside (scan.next codePoint) text last →
        Inside scan (codePoint :: text) last

namespace Inside

variable {scan next last : Scan} {text rest : Text}

theorem inString {opened deepest : Nat} {codePoint : CodePoint}
    (others : Inside (Scan.next ⟨.inString, opened, deepest⟩ codePoint) text last) :
    Inside ⟨.inString, opened, deepest⟩ (codePoint :: text) last :=
  .cons (by rintro ⟨⟩) others

theorem escaped {opened deepest : Nat} {codePoint : CodePoint}
    (others : Inside (Scan.next ⟨.escaped, opened, deepest⟩ codePoint) text last) :
    Inside ⟨.escaped, opened, deepest⟩ (codePoint :: text) last :=
  .cons (by rintro ⟨⟩) others

theorem trans (first : Inside scan text next) (second : Inside next rest last) :
    Inside scan (text ++ rest) last := by
  induction first with
  | nil => exact second
  | cons inside _ induction => exact .cons inside (induction second)

theorem foldl (inside : Inside scan text last) : text.foldl Scan.next scan = last := by
  induction inside with
  | nil => rfl
  | cons _ _ induction => exact induction

theorem strip (inside : Inside scan text last) : strip scan text = text := by
  induction inside with
  | nil => rfl
  | @cons scan last codePoint text notOutside _ induction =>
      rw [Json.strip, induction]
      split
      · rename_i outside _
        exact absurd outside notOutside
      · rfl

theorem place {codePoint : CodePoint} (inside : Inside scan (text ++ codePoint :: rest) last) :
    (text.foldl Scan.next scan).place ≠ .outside := by
  induction text generalizing scan with
  | nil =>
      cases inside with
      | cons notOutside => exact notOutside
  | cons first text induction =>
      cases inside with
      | cons _ others => exact induction others

end Inside

section Literals

variable (opened deepest : Nat)

theorem inside_plain {characters : List Char} (noQuote : '"' ∉ characters)
    (noBackslash : '\\' ∉ characters) :
    Inside ⟨.inString, opened, deepest⟩ (Text.ofChars characters)
      ⟨.inString, opened, deepest⟩ := by
  induction characters with
  | nil => exact .nil
  | cons character characters induction =>
      have stays : Scan.next ⟨.inString, opened, deepest⟩ (.scalar character) =
          ⟨.inString, opened, deepest⟩ := by
        simp [Scan.next, Scan.step, Ne.symm (List.ne_of_not_mem_cons noQuote),
          Ne.symm (List.ne_of_not_mem_cons noBackslash)]
      refine .inString ?_
      rw [stays]
      exact induction (List.not_mem_of_not_mem_cons noQuote)
        (List.not_mem_of_not_mem_cons noBackslash)

theorem inside_part {text : List Char} {part : Part} (spelled : PartText text part) :
    Inside ⟨.inString, opened, deepest⟩ (Text.ofChars text)
      ⟨.inString, opened, deepest⟩ := by
  cases spelled with
  | plain _ noQuote noBackslash =>
      exact inside_plain opened deepest
        (fun member => noQuote (List.mem_singleton.mp member).symm)
        (fun member => noBackslash (List.mem_singleton.mp member).symm)
  | letter => exact .inString (.escaped .nil)
  | number named =>
      refine .inString (.escaped ?_)
      exact inside_plain opened deepest (StringLiteral.not_mem_of_unit? named rfl)
        (StringLiteral.not_mem_of_unit? named rfl)

theorem inside_escapes (text : Text) :
    Inside ⟨.inString, opened, deepest⟩ (text.flatMap Escape.minimal)
      ⟨.inString, opened, deepest⟩ := by
  induction text with
  | nil => exact .nil
  | cons codePoint text induction =>
      rw [List.flatMap_cons]
      refine Inside.trans ?_ induction
      cases codePoint with
      | scalar character =>
          obtain ⟨part, isPart, _⟩ := part_of_escape character
          exact inside_part opened deepest isPart
      | surrogate half => exact .inString .nil

theorem inside_literal (text : Text) :
    Inside ⟨.inString, opened, deepest⟩ (text.flatMap Escape.minimal ++ [.scalar '"'])
      ⟨.outside, opened, deepest⟩ :=
  (inside_escapes opened deepest text).trans (.inString .nil)

theorem foldl_literal (text : Text) :
    (writeString .minimal text).foldl Scan.next ⟨.outside, opened, deepest⟩ =
      ⟨.outside, opened, deepest⟩ :=
  (inside_literal opened deepest text).foldl

theorem strip_literal (text : Text) :
    strip ⟨.outside, opened, deepest⟩ (writeString .minimal text) =
      writeString .minimal text := by
  have visible : CodePoint.isBlank (.scalar '"') = false := rfl
  rw [writeString, List.cons_append, strip, visible]
  exact congrArg (List.cons _) (inside_literal opened deepest text).strip

end Literals

theorem isBlank_ofChars {characters : List Char}
    (solid : ∀ character ∈ characters, Solid character) :
    ∀ codePoint ∈ Text.ofChars characters, codePoint.isBlank = false :=
  List.forall_mem_map.mpr fun character member => (solid character member).visible

section Flats

variable {character : Char} {characters : List Char} (opened deepest : Nat)

theorem next_flat (flat : Flat character) :
    Scan.next ⟨.outside, opened, deepest⟩ (.scalar character) =
      ⟨.outside, opened, deepest⟩ := by
  simp only [Flat, List.mem_cons, List.not_mem_nil, or_false, not_or] at flat
  simp [Scan.next, Scan.step, flat]

theorem foldl_flat (flat : ∀ character ∈ characters, Flat character) :
    (Text.ofChars characters).foldl Scan.next ⟨.outside, opened, deepest⟩ =
      ⟨.outside, opened, deepest⟩ := by
  induction characters with
  | nil => rfl
  | cons character characters induction =>
      obtain ⟨here, others⟩ := List.forall_mem_cons.mp flat
      rw [Text.ofChars, List.map_cons, List.foldl_cons, next_flat opened deepest here]
      exact induction others

theorem strip_blanks (blank : ∀ character ∈ characters,
    PalletTypes.isBlank character = true ∧ Flat character) :
    strip ⟨.outside, opened, deepest⟩ (Text.ofChars characters) = [] := by
  induction characters with
  | nil => rfl
  | cons character characters induction =>
      obtain ⟨⟨isBlank, flat⟩, others⟩ := List.forall_mem_cons.mp blank
      have passed : CodePoint.isBlank (.scalar character) = true := isBlank
      rw [Text.ofChars, List.map_cons, strip, passed, next_flat opened deepest flat]
      exact induction others

end Flats

theorem blank_newLine (depth : Nat) :
    ∀ character ∈ '\n' :: List.replicate (2 * depth) ' ',
      PalletTypes.isBlank character = true ∧ Flat character := by
  refine List.forall_mem_cons.mpr ⟨by decide, fun character member => ?_⟩
  rw [List.eq_of_mem_replicate member]
  decide

theorem flat_newLine (depth : Nat) :
    ∀ character ∈ '\n' :: List.replicate (2 * depth) ' ', Flat character :=
  fun character member => (blank_newLine depth character member).2

theorem foldl_token {before after : Spot} {token : Token} (step : Step before token after)
    (deepest : Nat) :
    ∃ deeper, token.text.foldl Scan.next ⟨.outside, before.opened, deepest⟩ =
      ⟨.outside, after.opened, deeper⟩ := by
  cases step with
  | word isWord =>
      exact ⟨deepest, foldl_flat _ _ fun _ member => (isWord.solid _ member).flat⟩
  | literal => exact ⟨deepest, foldl_literal _ _ _⟩
  | @opener opened bracket => cases bracket <;> exact ⟨max deepest (opened + 1), rfl⟩
  | @empty opened bracket | @closer opened bracket =>
      cases bracket <;> exact ⟨deepest, rfl⟩
  | comma =>
      have flat : ∀ character ∈ [','], Flat character := List.all_iff_forall_prop.mp rfl
      exact ⟨deepest, foldl_flat _ _ flat⟩
  | colon =>
      have flat : ∀ character ∈ [':', ' '], Flat character := List.all_iff_forall_prop.mp rfl
      exact ⟨deepest, foldl_flat _ _ flat⟩
  | firstLine | nextLine | lastLine => exact ⟨deepest, foldl_flat _ _ (flat_newLine _)⟩

theorem foldl_tokens {first last : Spot} {tokens : List Token}
    (steps : Steps first tokens last) (deepest : Nat) :
    ∃ deeper, (tokens.flatMap Token.text).foldl Scan.next ⟨.outside, first.opened, deepest⟩ =
      ⟨.outside, last.opened, deeper⟩ := by
  induction steps generalizing deepest with
  | nil => exact ⟨deepest, rfl⟩
  | cons step _ induction =>
      obtain ⟨between, here⟩ := foldl_token step deepest
      obtain ⟨deeper, others⟩ := induction between
      exact ⟨deeper, by rw [List.flatMap_cons, List.foldl_append, here, others]⟩

theorem strip_token {before after : Spot} {token : Token} (step : Step before token after)
    (deepest : Nat) :
    strip ⟨.outside, before.opened, deepest⟩ token.text = token.compact := by
  cases step with
  | word isWord => exact strip_visible _ (isBlank_ofChars isWord.solid)
  | literal => exact strip_literal _ _ _
  | @opener opened bracket | @empty opened bracket | @closer opened bracket =>
      cases bracket <;> exact strip_visible _ (by decide)
  | comma => exact strip_visible _ (by decide)
  | colon => rfl
  | firstLine | nextLine | lastLine => exact strip_blanks _ _ (blank_newLine _)

theorem strip_tokens {first last : Spot} {tokens : List Token}
    (steps : Steps first tokens last) (deepest : Nat) :
    strip ⟨.outside, first.opened, deepest⟩ (tokens.flatMap Token.text) =
      tokens.flatMap Token.compact := by
  induction steps generalizing deepest with
  | nil => rfl
  | cons step _ induction =>
      obtain ⟨between, here⟩ := foldl_token step deepest
      rw [List.flatMap_cons, strip_append, strip_token step, here, induction,
        List.flatMap_cons]

end Json

end PalletTypes

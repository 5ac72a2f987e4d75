import PalletTypes.Proofs.Json.Completeness
import PalletTypes.Proofs.Json.Layout
import PalletTypes.Proofs.Json.Nesting
import PalletTypes.Text.Blank

/-!
A layout as a list of tokens, in which line breaks count too. Which token may follow which,
and how many containers are open at each, is a relation of steps; every layout is a run of
them.
-/

namespace PalletTypes.Json

open Grammar

inductive Bracket where
  | square
  | curly

def Bracket.opening : Bracket → Char
  | .square => '['
  | .curly => '{'

def Bracket.closing : Bracket → Char
  | .square => ']'
  | .curly => '}'

/-- A line break has the spaces after it with it, and a colon the one space. `lastLine` is
the one before a closing bracket. -/
inductive Token where
  | word (characters : List Char)
  | literal (text : Text)
  | opener (bracket : Bracket)
  | closer (bracket : Bracket)
  | comma
  | colon
  | line (depth : Nat)
  | lastLine (depth : Nat)

namespace Token

def text : Token → Text
  | .word characters => Text.ofChars characters
  | .literal text => writeString .minimal text
  | .opener bracket => [.scalar bracket.opening]
  | .closer bracket => [.scalar bracket.closing]
  | .comma => [.scalar ',']
  | .colon => Text.ofString ": "
  | .line depth => newLine depth
  | .lastLine depth => newLine depth

/-- What is left without white space outside of string literals. -/
def compact : Token → Text
  | .colon => [.scalar ':']
  | .line _ | .lastLine _ => []
  | token => token.text

end Token

mutual
def Value.tokens (depth : Nat) : Value → List Token
  | .null => [.word ['n', 'u', 'l', 'l']]
  | .bool true => [.word ['t', 'r', 'u', 'e']]
  | .bool false => [.word ['f', 'a', 'l', 's', 'e']]
  | .integer value => [.word (writeInteger value)]
  | .float value => [.word value.write]
  | .string text => [.literal text]
  | .array [] => [.opener .square, .closer .square]
  | .object [] => [.opener .curly, .closer .curly]
  | .array (item :: items) =>
      .opener .square :: .line (depth + 1) :: item.tokens (depth + 1) ++
        itemTokens (depth + 1) items ++ [.lastLine depth, .closer .square]
  | .object ((name, value) :: members) =>
      .opener .curly :: .line (depth + 1) :: .literal name :: .colon ::
        value.tokens (depth + 1) ++ memberTokens (depth + 1) members ++
          [.lastLine depth, .closer .curly]

def itemTokens (depth : Nat) : List Value → List Token
  | [] => []
  | item :: items =>
      .comma :: .line depth :: item.tokens depth ++ itemTokens depth items

def memberTokens (depth : Nat) : List (Text × Value) → List Token
  | [] => []
  | (name, value) :: members =>
      .comma :: .line depth :: .literal name :: .colon :: value.tokens depth ++
        memberTokens depth members
end

mutual
theorem layout_eq_tokens (depth : Nat) : (value : Value) →
    value.layout depth = (value.tokens depth).flatMap Token.text
  | .null | .bool true | .bool false | .array [] | .object [] => rfl
  | .integer _ | .float _ | .string _ => by
      simp [Value.layout, Value.tokens, writeScalar, Token.text]
  | .array (item :: items) => by
      simp [Value.layout, Value.tokens, Token.text, Bracket.opening, Bracket.closing,
        layout_eq_tokens (depth + 1) item, layoutItems_eq_tokens (depth + 1) items]
  | .object ((name, value) :: members) => by
      simp [Value.layout, Value.tokens, Token.text, Bracket.opening, Bracket.closing,
        layout_eq_tokens (depth + 1) value, layoutMembers_eq_tokens (depth + 1) members]

theorem layoutItems_eq_tokens (depth : Nat) : (items : List Value) →
    layoutItems depth items = (itemTokens depth items).flatMap Token.text
  | [] => rfl
  | item :: items => by
      simp [layoutItems, itemTokens, Token.text, layout_eq_tokens depth item,
        layoutItems_eq_tokens depth items]

theorem layoutMembers_eq_tokens (depth : Nat) : (members : List (Text × Value)) →
    layoutMembers depth members = (memberTokens depth members).flatMap Token.text
  | [] => rfl
  | (name, value) :: members => by
      simp [layoutMembers, memberTokens, Token.text, layout_eq_tokens depth value,
        layoutMembers_eq_tokens depth members]
end

mutual
theorem compact_eq_tokens (depth : Nat) : (value : Value) →
    value.compact .minimal = (value.tokens depth).flatMap Token.compact
  | .null | .bool true | .bool false | .array [] | .object [] => rfl
  | .integer _ | .float _ | .string _ => by
      simp [Value.compact, Value.tokens, writeScalar, Token.compact, Token.text]
  | .array (item :: items) => by
      simp [Value.compact, Value.tokens, Token.compact, Token.text, Bracket.opening,
        Bracket.closing, compact_eq_tokens (depth + 1) item,
        compactItems_eq_tokens (depth + 1) items]
  | .object ((name, value) :: members) => by
      simp [Value.compact, Value.tokens, Token.compact, Token.text, Bracket.opening,
        Bracket.closing, compact_eq_tokens (depth + 1) value,
        compactMembers_eq_tokens (depth + 1) members]

theorem compactItems_eq_tokens (depth : Nat) : (items : List Value) →
    compactItems .minimal items = (itemTokens depth items).flatMap Token.compact
  | [] => rfl
  | item :: items => by
      simp [compactItems, itemTokens, Token.compact, Token.text,
        compact_eq_tokens depth item, compactItems_eq_tokens depth items]

theorem compactMembers_eq_tokens (depth : Nat) : (members : List (Text × Value)) →
    compactMembers .minimal members = (memberTokens depth members).flatMap Token.compact
  | [] => rfl
  | (name, value) :: members => by
      simp [compactMembers, memberTokens, Token.compact, Token.text,
        compact_eq_tokens depth value, compactMembers_eq_tokens depth members]
end

structure Solid (character : Char) : Prop where
  visible : isBlank character = false
  flat : Flat character
  noColon : character ≠ ':'

instance : DecidablePred Solid := fun character =>
  decidable_of_iff
    (isBlank character = false ∧ Flat character ∧ character ≠ ':')
    ⟨fun ⟨visible, flat, noColon⟩ => ⟨visible, flat, noColon⟩,
      fun solid => ⟨solid.visible, solid.flat, solid.noColon⟩⟩

structure IsWord (word : List Char) : Prop where
  nonempty : word ≠ []
  solid : ∀ character ∈ word, Solid character

theorem solid_of_isDigit {digit : Char} (isDigit : digit.isDigit = true) : Solid digit := by
  refine ⟨?_, flat_of_isDigit isDigit, ?_⟩
  · obtain ⟨low, high⟩ : 48 ≤ digit.toNat ∧ digit.toNat ≤ 57 :=
      Char.isDigit_iff_toNat.mp isDigit
    simp only [isBlank, blankRanges, List.any_cons, List.any_nil, Bool.or_false,
      Bool.or_eq_false_iff, Bool.and_eq_false_iff, decide_eq_false_iff_not]
    omega
  · rintro rfl
    cases isDigit

theorem isWord_of_number {text : List Char} {literal : NumberLiteral}
    (spelled : Number text literal) : IsWord text where
  nonempty := by
    obtain ⟨first, rest, rfl, _⟩ := opening_of_number spelled
    exact List.cons_ne_nil first rest
  solid := forall_mem_number (fun _ => solid_of_isDigit) (List.all_iff_forall_prop.mp rfl) spelled

theorem isWord_write (float : Binary64) : IsWord float.write := by
  cases float with
  | nonFinite kind => cases kind <;> exact ⟨by decide, List.all_iff_forall_prop.mp rfl⟩
  | finite negative magnitude =>
      obtain ⟨literal, spelled⟩ := number_of_float (number_write negative magnitude)
      exact isWord_of_number spelled

inductive Edge where
  | gap
  | value
  | opener
  | comma
  | lastLine

structure Spot where
  edge : Edge
  opened : Nat

/-- A token stands where it may. A line begins inside all the containers that are open, but
the one with a closing bracket inside all but the last. -/
inductive Step : Spot → Token → Spot → Prop
  | word {opened : Nat} {characters : List Char} :
      IsWord characters → Step ⟨.gap, opened⟩ (.word characters) ⟨.value, opened⟩
  | literal {opened : Nat} {text : Text} :
      Step ⟨.gap, opened⟩ (.literal text) ⟨.value, opened⟩
  | opener {opened : Nat} {bracket : Bracket} :
      Step ⟨.gap, opened⟩ (.opener bracket) ⟨.opener, opened + 1⟩
  | empty {opened : Nat} {bracket : Bracket} :
      Step ⟨.opener, opened + 1⟩ (.closer bracket) ⟨.value, opened⟩
  | firstLine {opened : Nat} : Step ⟨.opener, opened⟩ (.line opened) ⟨.gap, opened⟩
  | colon {opened : Nat} : Step ⟨.value, opened⟩ .colon ⟨.gap, opened⟩
  | comma {opened : Nat} : Step ⟨.value, opened⟩ .comma ⟨.comma, opened⟩
  | nextLine {opened : Nat} : Step ⟨.comma, opened⟩ (.line opened) ⟨.gap, opened⟩
  | lastLine {opened : Nat} :
      Step ⟨.value, opened + 1⟩ (.lastLine opened) ⟨.lastLine, opened + 1⟩
  | closer {opened : Nat} {bracket : Bracket} :
      Step ⟨.lastLine, opened + 1⟩ (.closer bracket) ⟨.value, opened⟩

inductive Steps : Spot → List Token → Spot → Prop
  | nil {spot : Spot} : Steps spot [] spot
  | cons {first next last : Spot} {token : Token} {tokens : List Token} :
      Step first token next → Steps next tokens last → Steps first (token :: tokens) last

theorem Steps.trans {first next last : Spot} {tokens others : List Token}
    (left : Steps first tokens next) (right : Steps next others last) :
    Steps first (tokens ++ others) last := by
  induction left with
  | nil => exact right
  | cons step _ induction => exact .cons step (induction right)

theorem Steps.one {first last : Spot} {token : Token} (step : Step first token last) :
    Steps first [token] last :=
  .cons step .nil

theorem Steps.of_append {first last : Spot} {tokens others : List Token}
    (steps : Steps first (tokens ++ others) last) :
    ∃ next, Steps first tokens next ∧ Steps next others last := by
  induction tokens generalizing first with
  | nil => exact ⟨first, .nil, steps⟩
  | cons token tokens induction =>
      cases steps with
      | cons step rest =>
          obtain ⟨next, left, right⟩ := induction rest
          exact ⟨next, .cons step left, right⟩

theorem Steps.of_split {first last : Spot} {earlier later : List Token} {token : Token}
    (steps : Steps first (earlier ++ token :: later) last) :
    ∃ before after, Steps first earlier before ∧ Step before token after ∧
      Steps after later last := by
  obtain ⟨before, left, right⟩ := steps.of_append
  cases right with
  | cons step rest => exact ⟨before, _, left, step, rest⟩

mutual
theorem steps_tokens (opened : Nat) : (value : Value) →
    Steps ⟨.gap, opened⟩ (value.tokens opened) ⟨.value, opened⟩
  | .null | .bool true | .bool false =>
      .one (.word ⟨by decide, List.all_iff_forall_prop.mp rfl⟩)
  | .integer value => .one (.word (isWord_of_number (spelled_writeInteger value)))
  | .float value => .one (.word (isWord_write value))
  | .string _ => .one .literal
  | .array [] | .object [] => .cons .opener (.one .empty)
  | .array (item :: items) => by
      rw [Value.tokens]
      refine .cons .opener (.cons .firstLine ?_)
      exact ((steps_tokens (opened + 1) item).trans (steps_itemTokens (opened + 1) items)).trans
        (.cons .lastLine (.one .closer))
  | .object ((name, value) :: members) => by
      rw [Value.tokens]
      refine .cons .opener (.cons .firstLine (.cons .literal (.cons .colon ?_)))
      exact ((steps_tokens (opened + 1) value).trans
        (steps_memberTokens (opened + 1) members)).trans (.cons .lastLine (.one .closer))

theorem steps_itemTokens (opened : Nat) : (items : List Value) →
    Steps ⟨.value, opened⟩ (itemTokens opened items) ⟨.value, opened⟩
  | [] => .nil
  | item :: items => by
      rw [itemTokens]
      refine .cons .comma (.cons .nextLine ?_)
      exact (steps_tokens opened item).trans (steps_itemTokens opened items)

theorem steps_memberTokens (opened : Nat) : (members : List (Text × Value)) →
    Steps ⟨.value, opened⟩ (memberTokens opened members) ⟨.value, opened⟩
  | [] => .nil
  | (name, value) :: members => by
      rw [memberTokens]
      refine .cons .comma (.cons .nextLine (.cons .literal (.cons .colon ?_)))
      exact (steps_tokens opened value).trans (steps_memberTokens opened members)
end

end PalletTypes.Json

import PalletTypes.Proofs.Decimal.Overflow
import PalletTypes.Proofs.Json.Readable

/-!
Where the doubles of a value come from. What a text denotes has no double but those that
number literals of the text stand for, and such a double is infinite exactly if its literal
is beyond all doubles.
-/

namespace PalletTypes.Json

open Grammar

/-! The elements of a container are parts of its text. -/

section Parts

variable {α : Type} {close : Char} {Element : List Char → α → Prop} {text : List Char}
  {values : List α}

theorem exists_part_of_sequence (spelled : Sequence close Element text values) :
    ∀ value ∈ values, ∃ part, part <:+: text ∧ Element part value := by
  induction spelled with
  | last element =>
      exact List.forall_mem_singleton.mpr ⟨_, (List.prefix_append _ _).isInfix, element⟩
  | @more text before after rest value values element _ _ _ induction =>
      refine List.forall_mem_cons.mpr ⟨⟨_, (List.prefix_append _ _).isInfix, element⟩, ?_⟩
      intro other member
      obtain ⟨part, inRest, element⟩ := induction other member
      have ends : rest <:+ text ++ (before ++ ',' :: (after ++ rest)) :=
        ⟨text ++ (before ++ ',' :: after), by simp⟩
      exact ⟨part, inRest.trans ends.isInfix, element⟩

theorem exists_part_of_body (spelled : Body close Element text values) :
    ∀ value ∈ values, ∃ part, part <:+: text ∧ Element part value := by
  cases spelled with
  | empty => exact fun _ member => nomatch member
  | filled _ sequence =>
      intro value member
      obtain ⟨part, inSequence, element⟩ := exists_part_of_sequence sequence value member
      exact ⟨part, inSequence.trans (List.suffix_append _ _).isInfix, element⟩

theorem exists_part_of_member {Item : List Char → Value → Prop} {pair : Text × Value}
    (spelled : Member Item text pair) : ∃ part, part <:+: text ∧ Item part pair.2 := by
  cases spelled with
  | @pair name before after text key value _ _ _ isItem =>
      have ends : text <:+ name ++ (before ++ ':' :: (after ++ text)) :=
        ⟨name ++ (before ++ ':' :: after), by simp⟩
      exact ⟨text, ends.isInfix, isItem⟩

end Parts

namespace NumberLiteral

/-- The double that a literal stands for if it has a fraction or an exponent. -/
def double (literal : NumberLiteral) : Binary64 :=
  .ofDecimal literal.negative (literal.whole ++ literal.fraction)
    (literal.exponentValue - literal.fraction.length)

/-- The number that the literal writes is beyond all doubles. -/
def Overflows (literal : NumberLiteral) : Prop :=
  Binary64.Overflows (Decimal.ofDigits (literal.whole ++ literal.fraction))
    (literal.exponentValue - literal.fraction.length)

end NumberLiteral

/-- Somewhere the text has the literal, which is not that of a whole number. -/
def DoubleIn (text : List Char) (literal : NumberLiteral) : Prop :=
  (∃ part, part <:+: text ∧ Number part literal) ∧
    (literal.fraction ≠ [] ∨ literal.exponent ≠ none)

theorem DoubleIn.mono {part text : List Char} {literal : NumberLiteral}
    (spelled : DoubleIn part literal) (within : part <:+: text) : DoubleIn text literal := by
  obtain ⟨⟨inner, inPart, number⟩, notWhole⟩ := spelled
  exact ⟨⟨inner, inPart.trans within, number⟩, notWhole⟩

theorem DoubleIn.overflow {text : List Char} {literal : NumberLiteral}
    (spelled : DoubleIn text literal) :
    (literal.Overflows → literal.double = .infinite literal.negative) ∧
      (¬ literal.Overflows → literal.double.nonFinite? = none) := by
  obtain ⟨⟨part, _, number⟩, _⟩ := spelled
  cases number with
  | parts _ isWhole isFraction _ =>
      exact Binary64.ofDecimal_overflow _ _ (List.forall_mem_append.mpr
        ⟨isDigit_of_mem_whole isWhole, isDigit_of_mem_fraction isFraction⟩)

/-- Somewhere the text has a literal that is beyond all doubles, on the side of the kind. -/
def OverflowIn (text : List Char) (kind : NonFinite) : Prop :=
  ∃ literal, DoubleIn text literal ∧ literal.Overflows ∧
    Binary64.infinite literal.negative = .nonFinite kind

theorem DoubleIn.overflowIn {text : List Char} {literal : NumberLiteral} {kind : NonFinite}
    (spelled : DoubleIn text literal) (beyond : literal.double.nonFinite? = some kind) :
    OverflowIn text kind ∧ literal.double = .nonFinite kind := by
  obtain ⟨infinite, finite⟩ := spelled.overflow
  by_cases overflows : literal.Overflows
  · rw [infinite overflows] at beyond ⊢
    have same : Binary64.infinite literal.negative = .nonFinite kind :=
      congrArg Binary64.nonFinite (Option.some.inj beyond)
    exact ⟨⟨literal, spelled, overflows, same⟩, same⟩
  · rw [finite overflows] at beyond
    cases beyond

theorem doubleIn_of_scalar {text : List Char} {value : Value} (spelled : Scalar text value) :
    ∀ float ∈ value.floats, ∃ literal, DoubleIn text literal ∧ float = literal.double := by
  cases spelled with
  | null | true | false | string => exact fun _ member => nomatch member
  | number number denoted =>
      cases denoted with
      | whole => exact fun _ member => nomatch member
      | double notWhole =>
          exact List.forall_mem_singleton.mpr
            ⟨_, ⟨⟨text, List.infix_refl text, number⟩, notWhole⟩, rfl⟩

theorem doubleIn_of_denotes : (depth : Nat) → (text : List Char) → (value : Value) →
    Denotes depth text value → ∀ float ∈ value.floats,
      ∃ literal, DoubleIn text literal ∧ float = literal.double
  | 0, _, _, spelled => doubleIn_of_scalar spelled
  | depth + 1, text, value, spelled => by
      rcases spelled with isScalar | isContainer
      · exact doubleIn_of_scalar isScalar
      · cases isContainer with
        | @array body items spelled =>
            rw [Value.floats, Value.floatsOfItems_eq]
            intro float member
            obtain ⟨item, inItems, inItem⟩ := List.mem_flatMap.mp member
            obtain ⟨part, within, denoted⟩ := exists_part_of_body spelled item inItems
            obtain ⟨literal, spelledBy, same⟩ :=
              doubleIn_of_denotes depth part item denoted float inItem
            exact ⟨literal, spelledBy.mono (within.trans (List.suffix_cons _ _).isInfix), same⟩
        | @object body pairs spelled =>
            rw [Value.floats, Value.floatsOfMembers_eq]
            intro float member
            obtain ⟨pair, inMembers, inValue⟩ := List.mem_flatMap.mp member
            have inPairs : pair ∈ pairs :=
              (Ordered.mem_putAll inMembers).resolve_left List.not_mem_nil
            obtain ⟨spelling, inBody, isMember⟩ := exists_part_of_body spelled pair inPairs
            obtain ⟨part, inSpelling, denoted⟩ := exists_part_of_member isMember
            obtain ⟨literal, spelledBy, same⟩ :=
              doubleIn_of_denotes depth part pair.2 denoted float inValue
            exact ⟨literal, spelledBy.mono ((inSpelling.trans inBody).trans
              (List.suffix_cons _ _).isInfix), same⟩

theorem doubleIn_of_document {depth : Nat} {text : List Char} {value : Value}
    (document : Document depth text value) : ∀ float ∈ value.floats,
      ∃ literal, DoubleIn text literal ∧ float = literal.double := by
  cases document with
  | @spaced before text after value _ denoted _ =>
      intro float member
      obtain ⟨literal, spelled, same⟩ := doubleIn_of_denotes depth text value denoted float member
      exact ⟨literal, spelled.mono ⟨before, after, List.append_assoc before text after⟩, same⟩

end PalletTypes.Json

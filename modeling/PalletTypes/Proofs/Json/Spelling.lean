import PalletTypes.Proofs.Json.Nesting
import PalletTypes.Proofs.Json.Readable

/-!
Objects told by the texts of their members. A member denotes the same name and value
whatever stands beside it, so the members of an object may be written as several objects.
-/

namespace PalletTypes.Json.Grammar

variable {α : Type} {close : Char}

/-! A container whose elements are its spellings. -/

theorem sequence_of_spellings {Element : List Char → α → Prop}
    {Spelled : List Char → List Char → Prop}
    (exact : ∀ text spelling, Spelled text spelling → text = spelling)
    {text : List Char} {spellings : List (List Char)} {values : List α}
    (spelled : Sequence close Spelled text spellings)
    (each : List.Forall₂ Element spellings values) : Sequence close Element text values := by
  induction spelled generalizing values with
  | last isSpelled isGap =>
      cases each with
      | cons isElement none =>
          cases none
          exact .last (exact _ _ isSpelled ▸ isElement) isGap
  | more isSpelled isBefore isAfter _ induction =>
      cases each with
      | cons isElement others =>
          exact .more (exact _ _ isSpelled ▸ isElement) isBefore isAfter (induction others)

theorem body_of_spellings {Element : List Char → α → Prop}
    {Spelled : List Char → List Char → Prop}
    (exact : ∀ text spelling, Spelled text spelling → text = spelling)
    {text : List Char} {spellings : List (List Char)} {values : List α}
    (spelled : Body close Spelled text spellings)
    (each : List.Forall₂ Element spellings values) : Body close Element text values := by
  cases spelled with
  | empty isGap =>
      cases each
      exact .empty isGap
  | filled isGap sequence => exact .filled isGap (sequence_of_spellings exact sequence each)

def SpelledMember (depth : Nat) (text spelling : List Char) : Prop :=
  text = spelling ∧ ∃ pair, Member (Denotes depth) text pair

/-- The text is an object with white space around it, and its members are spelled so. -/
inductive ObjectOf (spellings : List (List Char)) : List Char → Prop
  | spaced {depth : Nat} {before body after : List Char} :
      Gap before → Body '}' (SpelledMember depth) body spellings → Gap after →
        ObjectOf spellings (before ++ ('{' :: body ++ after))

theorem spelledMember_grows : Grows SpelledMember := by
  rintro low high below text spelling ⟨same, pair, isMember⟩
  exact ⟨same, pair, member_imp (denotes_grows below) text pair isMember⟩

theorem spelledMember_levels (depth : Nat) : Levels SpelledMember depth := by
  rintro text spelling ⟨same, pair, isMember⟩
  obtain ⟨level, below, nests, isMember⟩ :=
    member_level (denotes_level depth) text pair isMember
  exact ⟨level, below, nests, same, pair, isMember⟩

theorem ObjectOf.members {spellings : List (List Char)} {text : List Char} {depth : Nat}
    (isObject : ObjectOf spellings text) (shallow : nesting text ≤ depth + 1) :
    ∀ spelling ∈ spellings, ∃ pair, Member (Denotes depth) spelling pair := by
  cases isObject with
  | @spaced deep before body after isBefore spelled isAfter =>
      obtain ⟨level, _, inside, rfl, nests, spelled⟩ :=
        body_level spelledMember_grows (spelledMember_levels deep) spelled
      have braced : Nests (level + 1) ('{' :: (inside ++ ['}'])) :=
        nests.bracketed (Or.inr rfl) (Or.inr rfl)
      have whole := (nests_gap isBefore).append (braced.append (nests_gap isAfter))
      rw [nesting_of_nests whole] at shallow
      have below : level ≤ depth := by omega
      refine forall_of_body (fun text spelling isSpelled => ?_) spelled
      obtain ⟨rfl, isMember⟩ := spelledMember_grows below text spelling isSpelled
      exact isMember

theorem ObjectOf.document {spellings : List (List Char)} {text : List Char} {depth : Nat}
    {pairs : List (Text × Value)} (isObject : ObjectOf spellings text)
    (each : List.Forall₂ (Member (Denotes depth)) spellings pairs) :
    Document (depth + 1) text (.object (Ordered.putAll [] pairs)) := by
  cases isObject with
  | spaced isBefore spelled isAfter =>
      have body := body_of_spellings (fun _ _ isSpelled => isSpelled.1) spelled each
      exact .spaced isBefore (Or.inr (.object body)) isAfter

/-! Any members make an object. -/

/-- What follows the opening brace of an object with commas between its members. -/
def separated : List (List Char) → List Char
  | [] => ['}']
  | [spelling] => spelling ++ ['}']
  | spelling :: spellings => spelling ++ ',' :: separated spellings

theorem sequence_separated {Spelled : List Char → List Char → Prop}
    {first : List Char} {spellings : List (List Char)}
    (each : ∀ spelling ∈ first :: spellings, Spelled spelling spelling) :
    Sequence '}' Spelled (separated (first :: spellings)) (first :: spellings) := by
  induction spellings generalizing first with
  | nil => exact .last (each first List.mem_cons_self) gap_nil
  | cons second spellings induction =>
      rw [List.forall_mem_cons] at each
      exact .more each.1 gap_nil gap_nil (induction each.2)

theorem objectOf_separated {spellings : List (List Char)} {pairs : List (Text × Value)}
    {depth : Nat} (each : List.Forall₂ (Member (Denotes depth)) spellings pairs) :
    ObjectOf spellings ('{' :: separated spellings) := by
  have spelled : ∀ spelling ∈ spellings, SpelledMember depth spelling spelling := by
    induction each with
    | nil => exact nofun
    | cons isMember _ induction =>
        exact List.forall_mem_cons.mpr ⟨⟨rfl, _, isMember⟩, induction⟩
  have body : Body '}' (SpelledMember depth) (separated spellings) spellings := by
    cases spellings with
    | nil => exact .empty gap_nil
    | cons first spellings => exact .filled gap_nil (sequence_separated spelled)
  have object := ObjectOf.spaced gap_nil body gap_nil
  rwa [List.nil_append, List.append_nil] at object

def sampleSpelling (letter : Char) (word : List Char) : List Char :=
  '"' :: letter :: '"' :: ':' :: word

theorem member_sampleSpelling {letter : Char} {word : List Char} {value : Value} {depth : Nat}
    (printed : 0x20 ≤ letter.toNat ∧ letter ≠ '"' ∧ letter ≠ '\\')
    (isScalar : Scalar word value) :
    Member (Denotes depth) (sampleSpelling letter word) ([.scalar letter], value) := by
  obtain ⟨noControl, noQuote, noBackslash⟩ := printed
  exact .pair (.quoted (.cons (.plain noControl noQuote noBackslash) .nil)) gap_nil gap_nil
    (denotes_of_scalar isScalar)

end PalletTypes.Json.Grammar

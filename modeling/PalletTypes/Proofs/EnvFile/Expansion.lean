import PalletTypes.EnvFile.Reference

/-!
What becomes of the references in a value. They are replaced from left to right, each of
them once, by what their names stand for.
-/

namespace PalletTypes.EnvFile

/-- What lines have assigned so far, the latest first. -/
abbrev History := List (String × String)

/-- A reference without the `${` that it begins with. -/
inductive Reference : List Char → List Char → Option (List Char) → Prop
  | plain {name : List Char} :
      (∀ character ∈ name, isNamePart character = true) →
        Reference (name ++ ['}']) name none
  | withFallback {name fallback : List Char} :
      (∀ character ∈ name, isNamePart character = true) →
        (∀ character ∈ fallback, character ≠ '}') →
          Reference (name ++ ':' :: '-' :: (fallback ++ ['}'])) name (some fallback)

variable {environment : Environment} {history : History}

/-- The environment goes before earlier lines, and they go before the fallback. -/
def standsFor (environment : Environment) (history : History) (name : List Char)
    (fallback : Option (List Char)) : List Char :=
  match (environment.get? (String.ofList name)).or
      (Ordered.lookup? (String.ofList name) history) with
  | some value => value.toList
  | none => fallback.getD []

inductive Expands (environment : Environment) (history : History) :
    List Char → List Char → Prop
  | nil : Expands environment history [] []
  | reference {body name rest expanded : List Char} {fallback : Option (List Char)} :
      Reference body name fallback → Expands environment history rest expanded →
        Expands environment history ('$' :: '{' :: (body ++ rest))
          (standsFor environment history name fallback ++ expanded)
  | literal {character : Char} {rest expanded : List Char} :
      (∀ body name fallback after, Reference body name fallback →
        character :: rest ≠ '$' :: '{' :: (body ++ after)) →
          Expands environment history rest expanded →
            Expands environment history (character :: rest) (character :: expanded)

/-! References are taken as they are written. -/

theorem takeReference?_append {body name : List Char} {fallback : Option (List Char)}
    (isReference : Reference body name fallback) (rest : List Char) :
    takeReference? (body ++ rest) = some (.reference name fallback, rest) := by
  cases isReference with
  | plain isName =>
      rw [takeReference?, List.append_assoc, List.takeWhile_append_of_pos isName,
        List.dropWhile_append_of_pos isName]
      simp [isNamePart]
  | @withFallback name fallback isName isFallback =>
      have ends : ∀ character ∈ fallback, (character != '}') = true := by simpa using isFallback
      rw [takeReference?, List.append_assoc, List.takeWhile_append_of_pos isName,
        List.dropWhile_append_of_pos isName]
      simp [isNamePart, List.takeWhile_append_of_pos ends, List.dropWhile_append_of_pos ends]

theorem of_takeReference? {text rest : List Char} {piece : Piece}
    (taken : takeReference? text = some (piece, rest)) :
    ∃ body name fallback, text = body ++ rest ∧ piece = .reference name fallback ∧
      Reference body name fallback := by
  have isName : ∀ character ∈ text.takeWhile isNamePart, isNamePart character = true :=
    List.all_eq_true.mp List.all_takeWhile
  have whole := (List.takeWhile_append_dropWhile (p := isNamePart) (l := text)).symm
  unfold takeReference? at taken
  simp only at taken
  split at taken
  · rename_i after ends
    cases taken
    refine ⟨_, _, none, ?_, rfl, .plain isName⟩
    rwa [ends, ← List.singleton_append, ← List.append_assoc] at whole
  · rename_i following ends
    have isFallback : ∀ character ∈ following.takeWhile (· != '}'), character ≠ '}' :=
      fun character member => bne_iff_ne.mp
        (List.all_eq_true.mp (List.all_takeWhile (p := (· != '}'))) character member)
    have wholeFallback :=
      (List.takeWhile_append_dropWhile (p := (· != '}')) (l := following)).symm
    split at taken
    · rename_i after closes
      cases taken
      refine ⟨_, _, some _, ?_, rfl, .withFallback isName isFallback⟩
      rw [closes] at wholeFallback
      rw [ends, wholeFallback] at whole
      simpa using whole
    · cases taken
  · cases taken

/-! The pieces of a value are its expansion. -/

/-- What lines have left is what was assigned to each name last. -/
def Agree (history : History) (earlier : Assigned) : Prop :=
  ∀ name, Ordered.lookup? name earlier = (Ordered.lookup? name history).map some

theorem resolve_reference {earlier : Assigned} (agree : Agree history earlier)
    (name : List Char) (fallback : Option (List Char)) :
    (Piece.reference name fallback).resolve environment earlier =
      standsFor environment history name fallback := by
  rw [Piece.resolve, standsFor, agree]
  cases environment.get? (String.ofList name) with
  | some value => rfl
  | none => cases Ordered.lookup? (String.ofList name) history <;> rfl

theorem piecesWithin_reference {body name : List Char} {fallback : Option (List Char)}
    (isReference : Reference body name fallback) (steps : Nat) (rest : List Char) :
    piecesWithin (steps + 1) ('$' :: '{' :: (body ++ rest)) =
      .reference name fallback :: piecesWithin steps rest := by
  simp only [piecesWithin, takeReference?_append isReference]

theorem piecesWithin_literal {character : Char} {rest : List Char}
    (noReference : ∀ body name fallback after, Reference body name fallback →
      character :: rest ≠ '$' :: '{' :: (body ++ after)) (steps : Nat) :
    piecesWithin (steps + 1) (character :: rest) =
      .literal character :: piecesWithin steps rest := by
  by_cases marks : ∃ others, character = '$' ∧ rest = '{' :: others
  · obtain ⟨others, rfl, rfl⟩ := marks
    cases taken : takeReference? others with
    | none => simp only [piecesWithin, taken]
    | some reference =>
        obtain ⟨body, name, fallback, rfl, _, isReference⟩ := of_takeReference? taken
        exact absurd rfl (noReference body name fallback _ isReference)
  · rw [piecesWithin]
    exact fun others isMark isBrace => marks ⟨others, isMark, isBrace⟩

theorem expands_pieces {earlier : Assigned} (agree : Agree history earlier) (steps : Nat)
    {text : List Char} (enough : text.length ≤ steps) : Expands environment history text
      ((piecesWithin steps text).flatMap (Piece.resolve environment earlier)) := by
  induction steps generalizing text with
  | zero =>
      rw [List.eq_nil_of_length_eq_zero (Nat.le_zero.mp enough)]
      exact .nil
  | succ steps induction =>
      cases text with
      | nil => exact .nil
      | cons character text =>
          rw [List.length_cons] at enough
          -- A `${` that begins no reference is two characters like any other.
          by_cases begins : ∃ body name fallback after, Reference body name fallback ∧
            character :: text = '$' :: '{' :: (body ++ after)
          · obtain ⟨body, name, fallback, after, isReference, same⟩ := begins
            have shorter := congrArg List.length same
            simp only [List.length_cons, List.length_append] at shorter
            rw [same, piecesWithin_reference isReference, List.flatMap_cons,
              resolve_reference agree]
            exact .reference isReference (induction (by omega))
          · have noReference : ∀ body name fallback after, Reference body name fallback →
                character :: text ≠ '$' :: '{' :: (body ++ after) :=
              fun body name fallback after isReference same =>
                begins ⟨body, name, fallback, after, isReference, same⟩
            rw [piecesWithin_literal noReference]
            exact .literal noReference (induction (by omega))

theorem flatMap_pieces {earlier : Assigned} (agree : Agree history earlier)
    {text expanded : List Char} (expands : Expands environment history text expanded)
    {steps : Nat} (enough : text.length ≤ steps) :
    (piecesWithin steps text).flatMap (Piece.resolve environment earlier) = expanded := by
  induction expands generalizing steps with
  | nil => cases steps <;> rfl
  | @reference body name rest expanded fallback isReference _ induction =>
      simp only [List.length_cons, List.length_append] at enough
      obtain ⟨fewer, rfl⟩ : ∃ fewer, steps = fewer + 1 := ⟨steps - 1, by omega⟩
      rw [piecesWithin_reference isReference, List.flatMap_cons, resolve_reference agree,
        induction (by omega)]
  | literal noReference _ induction =>
      rw [List.length_cons] at enough
      obtain ⟨fewer, rfl⟩ : ∃ fewer, steps = fewer + 1 := ⟨steps - 1, by omega⟩
      rw [piecesWithin_literal noReference, List.flatMap_cons, induction (by omega)]
      rfl

theorem expands_iff {earlier : Assigned} (agree : Agree history earlier) {value : String}
    {expanded : List Char} : Expands environment history value.toList expanded ↔
      (resolve environment earlier value).toList = expanded := by
  rw [resolve, String.toList_ofList, pieces]
  constructor
  · exact fun expands => flatMap_pieces agree expands (Nat.le_refl _)
  · rintro rfl
    exact expands_pieces agree _ (Nat.le_refl _)

end PalletTypes.EnvFile

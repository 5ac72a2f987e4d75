import PalletTypes.Proofs.Json.Readable

/-!
Places in a value. A place leads down from the whole value: for each container on the way,
the number of the item or member to go on with. Values are written in the lexicographic order
of their places.
-/

namespace PalletTypes.Json

theorem findSome?_flatMap {α β γ : Type} (items : List α) (inner : α → List β)
    (find? : β → Option γ) :
    (items.flatMap inner).findSome? find? =
      items.findSome? fun item => (inner item).findSome? find? := by
  induction items with
  | nil => rfl
  | cons item items induction =>
      rw [List.flatMap_cons, List.findSome?_append, induction, List.findSome?_cons]
      cases (inner item).findSome? find? <;> rfl

namespace Value

def parts : Value → List Value
  | .array items => items
  | .object members => members.map Prod.snd
  | _ => []

def texts : Value → List Text
  | .string text => [text]
  | .object members => members.map Prod.fst
  | _ => []

theorem sizeOf_lt_of_mem_parts {value part : Value} (member : part ∈ value.parts) :
    sizeOf part < sizeOf value := by
  cases value with
  | array items =>
      have less := List.sizeOf_lt_of_mem (show part ∈ items from member)
      simp only [array.sizeOf_spec]
      omega
  | object members =>
      obtain ⟨⟨name, inner⟩, inMembers, rfl⟩ := List.mem_map.mp member
      have less := List.sizeOf_lt_of_mem inMembers
      simp only [object.sizeOf_spec, Prod.mk.sizeOf_spec] at less ⊢
      omega
  | _ => cases member

theorem induction_parts {motive : Value → Prop}
    (step : ∀ value, (∀ part ∈ value.parts, motive part) → motive value) (value : Value) :
    motive value :=
  step value fun part member =>
    have : sizeOf part < sizeOf value := sizeOf_lt_of_mem_parts member
    induction_parts step part
termination_by sizeOf value

def at? : Value → List Nat → Option Value
  | value, [] => some value
  | value, index :: place => value.parts[index]?.bind fun part => part.at? place

theorem at?_cons_eq_some_iff {value found : Value} {index : Nat} {place : List Nat} :
    value.at? (index :: place) = some found ↔
      ∃ part, value.parts[index]? = some part ∧ part.at? place = some found := by
  rw [at?, Option.bind_eq_some_iff]

/-! Names and strings. -/

/-- The text is a string or a name somewhere in the value. -/
def HasText (value : Value) (text : Text) : Prop :=
  ∃ place found, value.at? place = some found ∧ text ∈ found.texts

theorem hasText_iff {value : Value} {text : Text} :
    value.HasText text ↔ text ∈ value.texts ∨ ∃ part ∈ value.parts, part.HasText text := by
  constructor
  · rintro ⟨place, found, stands, isText⟩
    cases place with
    | nil =>
        cases stands
        exact .inl isText
    | cons index place =>
        obtain ⟨part, here, below⟩ := at?_cons_eq_some_iff.mp stands
        exact .inr ⟨part, List.mem_of_getElem? here, place, found, below, isText⟩
  · rintro (isText | ⟨part, member, place, found, below, isText⟩)
    · exact ⟨[], value, rfl, isText⟩
    · obtain ⟨index, here⟩ := List.mem_iff_getElem?.mp member
      exact ⟨index :: place, found, at?_cons_eq_some_iff.mpr ⟨part, here, below⟩, isText⟩

theorem mem_content_cases {value : Value} {codePoint : CodePoint} :
    codePoint ∈ value.content ↔
      (∃ text ∈ value.texts, codePoint ∈ text) ∨
        ∃ part ∈ value.parts, codePoint ∈ part.content := by
  cases value with
  | array items => simp [content, contentOfItems_eq, texts, parts]
  | object members =>
      simp only [content, contentOfMembers_eq, List.mem_flatMap, List.mem_append, texts, parts,
        List.mem_map, ← exists_or, and_or_left, exists_exists_and_eq_and]
  | _ => simp [content, texts, parts]

theorem mem_content_iff {value : Value} {codePoint : CodePoint} :
    codePoint ∈ value.content ↔ ∃ text, value.HasText text ∧ codePoint ∈ text := by
  induction value using induction_parts with
  | step value induction =>
      rw [mem_content_cases]
      constructor
      · rintro (⟨text, isText, inText⟩ | ⟨part, member, inPart⟩)
        · exact ⟨text, hasText_iff.mpr (.inl isText), inText⟩
        · obtain ⟨text, hasText, inText⟩ := (induction part member).mp inPart
          exact ⟨text, hasText_iff.mpr (.inr ⟨part, member, hasText⟩), inText⟩
      · rintro ⟨text, hasText, inText⟩
        rcases hasText_iff.mp hasText with isText | ⟨part, member, below⟩
        · exact .inl ⟨text, isText, inText⟩
        · exact .inr ⟨part, member, (induction part member).mpr ⟨text, below, inText⟩⟩

/-! Doubles that are not finite. -/

def nonFinite? : Value → Option NonFinite
  | .float value => value.nonFinite?
  | _ => none

theorem eq_of_nonFinite? {value : Value} {kind : NonFinite}
    (beyond : value.nonFinite? = some kind) : value = .float (.nonFinite kind) := by
  cases value with
  | float value =>
      cases value with
      | finite => cases beyond
      | nonFinite other =>
          cases beyond
          rfl
  | _ => cases beyond

def firstNonFinite? (value : Value) : Option NonFinite :=
  value.floats.findSome? Binary64.nonFinite?

theorem firstNonFinite?_eq (value : Value) :
    value.firstNonFinite? = value.nonFinite?.or (value.parts.findSome? firstNonFinite?) := by
  cases value with
  | float value => cases value <;> rfl
  | array items =>
      rw [firstNonFinite?, floats, floatsOfItems_eq, findSome?_flatMap]
      rfl
  | object members =>
      rw [firstNonFinite?, floats, floatsOfMembers_eq, findSome?_flatMap, parts,
        List.findSome?_map]
      rfl
  | _ => rfl

/-- A double that is not finite stands at the place. -/
def NonFiniteAt (value : Value) (place : List Nat) (kind : NonFinite) : Prop :=
  value.at? place = some (.float (.nonFinite kind))

/-- And none stands at a place before. -/
structure FirstNonFinite (value : Value) (place : List Nat) (kind : NonFinite) : Prop where
  stands : value.NonFiniteAt place kind
  first : ∀ other otherKind, List.Lex (· < ·) other place → ¬ value.NonFiniteAt other otherKind

theorem finite_of_firstNonFinite? {value : Value} (none : value.firstNonFinite? = none) :
    ∀ place kind, ¬ value.NonFiniteAt place kind := by
  intro place kind stands
  induction place generalizing value with
  | nil =>
      cases stands
      cases none
  | cons index place induction =>
      obtain ⟨part, here, below⟩ := at?_cons_eq_some_iff.mp stands
      rw [firstNonFinite?_eq, Option.or_eq_none_iff, List.findSome?_eq_none_iff] at none
      exact induction (none.2 part (List.mem_of_getElem? here)) below

theorem exists_firstNonFinite {value : Value} {kind : NonFinite}
    (found : value.firstNonFinite? = some kind) : ∃ place, value.FirstNonFinite place kind := by
  induction value using induction_parts with
  | step value induction =>
      rw [firstNonFinite?_eq, Option.or_eq_some_iff] at found
      rcases found with itself | ⟨notItself, inParts⟩
      · exact ⟨[], congrArg some (eq_of_nonFinite? itself), fun _ _ before => nomatch before⟩
      · obtain ⟨before, part, after, split, found, none⟩ :=
          List.findSome?_eq_some_iff.mp inParts
        have here : value.parts[before.length]? = some part := by simp [split]
        obtain ⟨place, stands, first⟩ := induction part (List.mem_of_getElem? here) found
        refine ⟨before.length :: place, at?_cons_eq_some_iff.mpr ⟨part, here, stands⟩, ?_⟩
        intro other otherKind earlier otherStands
        cases earlier with
        | nil =>
            cases otherStands
            cases notItself
        | cons earlier =>
            obtain ⟨otherPart, there, below⟩ := at?_cons_eq_some_iff.mp otherStands
            cases here.symm.trans there
            exact first _ otherKind earlier below
        | rel less =>
            obtain ⟨otherPart, there, below⟩ := at?_cons_eq_some_iff.mp otherStands
            rw [split, List.getElem?_append_left less] at there
            exact finite_of_firstNonFinite? (none _ (List.mem_of_getElem? there)) _ _ below

/-- The first one in the order of writing is the one at the first place. -/
theorem firstNonFinite?_eq_some_iff {value : Value} {kind : NonFinite} :
    value.firstNonFinite? = some kind ↔ ∃ place, value.FirstNonFinite place kind := by
  refine ⟨exists_firstNonFinite, ?_⟩
  rintro ⟨place, stands, first⟩
  cases found : value.firstNonFinite? with
  | none => exact absurd stands (finite_of_firstNonFinite? found place kind)
  | some other =>
      obtain ⟨otherPlace, otherStands, otherFirst⟩ := exists_firstNonFinite found
      have same : place = otherPlace := List.le_antisymm
        (fun earlier => first _ _ earlier otherStands)
        fun earlier => otherFirst _ _ earlier stands
      cases otherStands.symm.trans (same ▸ stands)
      rfl

end Value

end PalletTypes.Json

import PalletTypes.Proofs.Except
import PalletTypes.Proofs.Json.Number
import PalletTypes.Proofs.Json.Parts
import PalletTypes.Proofs.Json.StringLiteral

/-!
What the grammar derives is read. A derivation says how far every part of a text
goes; the reader goes as far, since no part can be taken for longer than it is
where a value may end.
-/

namespace PalletTypes.Json

open Grammar

variable {α : Type}

def Reads {bound : Nat} (result : Except Fault (Taken α bound)) (value : α)
    (rest : List Char) : Prop :=
  ∃ shorter, result = .ok ⟨value, rest, shorter⟩

theorem reads_iff_unbounded {bound : Nat} {result : Except Fault (Taken α bound)} {value : α}
    {rest : List Char} : Reads result value rest ↔ unbounded result = .ok (value, rest) := by
  unfold unbounded
  rw [map_eq_ok_iff]
  constructor
  · rintro ⟨shorter, rfl⟩
    exact ⟨_, rfl, rfl⟩
  · rintro ⟨⟨held, left, shorter⟩, rfl, same⟩
    cases same
    exact ⟨shorter, rfl⟩

theorem skipSpace_gap {gap : List Char} (isGap : Gap gap) (rest : List Char) :
    skipSpace (gap ++ rest) = skipSpace rest :=
  List.dropWhile_append_of_pos isGap

theorem skipSpace_solid {first : Char} (solid : isSpace first = false)
    (rest : List Char) : skipSpace (first :: rest) = first :: rest := by
  simp [skipSpace, solid]

theorem delimited_gap {gap : List Char} (isGap : Gap gap) {rest : List Char}
    (delimited : Delimited rest) : Delimited (gap ++ rest) := by
  cases gap with
  | nil => exact delimited
  | cons space gap =>
      intro character head
      cases head
      exact Or.inl (isGap space List.mem_cons_self)

theorem delimited_cons {mark : Char} (isMark : mark = ',' ∨ mark = ']' ∨ mark = '}')
    (rest : List Char) : Delimited (mark :: rest) := by
  intro character head
  cases head
  exact Or.inr isMark

theorem stops_of_delimited {rest : List Char} (delimited : Delimited rest) :
    NumberLiteral.Stops NumberLiteral.MoreNumber rest := by
  intro character head more
  have ends := delimited character head
  simp only [isSpace, Bool.or_eq_true, beq_iff_eq] at ends
  rcases ends with (((rfl | rfl) | rfl) | rfl) | rfl | rfl | rfl <;>
    simp [NumberLiteral.MoreNumber] at more

theorem first_of_number {text : List Char} {literal : NumberLiteral}
    (spelled : Number text literal) :
    (∃ digit rest, text = digit :: rest ∧ digit.isDigit = true) ∨
      ∃ digit rest, text = '-' :: digit :: rest ∧ digit.isDigit = true := by
  cases spelled with
  | @parts sign whole fraction exponent digits negative power isSign isWhole =>
      obtain ⟨digit, others, rfl, isDigit⟩ :
          ∃ digit others, whole = digit :: others ∧ digit.isDigit = true := by
        cases isWhole with
        | zero => exact ⟨'0', [], rfl, rfl⟩
        | digits digits _ =>
            cases whole with
            | nil => exact absurd rfl digits.nonempty
            | cons digit others =>
                exact ⟨digit, others, rfl, digits.all digit List.mem_cons_self⟩
      cases isSign with
      | absent => exact Or.inl ⟨digit, _, rfl, isDigit⟩
      | minus => exact Or.inr ⟨digit, _, rfl, isDigit⟩

theorem readScalar_of_number (dialect : Dialect) {text : List Char}
    {literal : NumberLiteral} (spelled : Number text literal) (rest : List Char) :
    readScalar dialect (text ++ rest) = readNumber (text ++ rest) := by
  generalize start : text ++ rest = whole
  rcases first_of_number spelled with
    ⟨digit, others, rfl, isDigit⟩ | ⟨digit, others, rfl, isDigit⟩
  · fun_cases readScalar dialect whole with
    | case8 => rfl
    | _ =>
        rw [(List.cons.inj start).1] at isDigit
        cases isDigit
  · fun_cases readScalar dialect whole with
    | case8 => rfl
    | case7 =>
        rw [(List.cons.inj (List.cons.inj start).2).1] at isDigit
        cases isDigit
    | _ => exact absurd (List.cons.inj start).1 (by decide)

theorem readScalar_append (dialect : Dialect) {text rest : List Char} {value : Value}
    (spelled : Scalar text value) (delimited : Delimited rest) :
    readScalar dialect (text ++ rest) = .ok (value, rest) := by
  cases spelled with
  | null => rfl
  | true => rfl
  | false => rfl
  | string spelled =>
      obtain ⟨body, rfl, reads⟩ := StringLiteral.read_append spelled
      rw [List.cons_append, readScalar, reads]
      rfl
  | @number text literal value spelled number =>
      rw [readScalar_of_number dialect spelled rest, readNumber,
        NumberLiteral.take?_append spelled (stops_of_delimited delimited)]
      simp only [NumberLiteral.value_eq_ok_iff.mpr number, Except.map]

/-! What a value begins with. -/

/-- A value begins with none of the characters that may stand before it. -/
structure Opening (first : Char) : Prop where
  solid : isSpace first = false
  inside : first ≠ ']'
  unmarked : first ≠ '\uFEFF'

theorem opening_of_isDigit {first : Char} (isDigit : first.isDigit = true) :
    Opening first ∧ first ≠ '[' ∧ first ≠ '{' := by
  have other (character : Char) (noDigit : character.isDigit = false) :
      first ≠ character := by
    rintro rfl
    rw [isDigit] at noDigit
    cases noDigit
  refine ⟨⟨?_, other ']' rfl, other '\uFEFF' rfl⟩, other '[' rfl, other '{' rfl⟩
  simp only [isSpace, beq_eq_false_iff_ne.mpr (other ' ' rfl),
    beq_eq_false_iff_ne.mpr (other '\t' rfl), beq_eq_false_iff_ne.mpr (other '\n' rfl),
    beq_eq_false_iff_ne.mpr (other '\r' rfl), Bool.or_self]

theorem opening_of_number {text : List Char} {literal : NumberLiteral}
    (spelled : Number text literal) :
    ∃ first rest, text = first :: rest ∧ Opening first ∧ first ≠ '[' ∧ first ≠ '{' := by
  rcases first_of_number spelled with
    ⟨digit, rest, rfl, isDigit⟩ | ⟨digit, rest, rfl, isDigit⟩
  · exact ⟨digit, rest, rfl, opening_of_isDigit isDigit⟩
  · exact ⟨_, _, rfl, ⟨rfl, by decide, by decide⟩, by decide, by decide⟩

theorem opening_of_scalar {text : List Char} {value : Value}
    (spelled : Scalar text value) :
    ∃ first rest, text = first :: rest ∧ Opening first ∧ first ≠ '[' ∧ first ≠ '{' := by
  cases spelled with
  | null | true | false =>
      exact ⟨_, _, rfl, ⟨rfl, by decide, by decide⟩, by decide, by decide⟩
  | string spelled =>
      cases spelled with
      | quoted => exact ⟨_, _, rfl, ⟨rfl, by decide, by decide⟩, by decide, by decide⟩
  | number spelled => exact opening_of_number spelled

/-! Lists of parts. -/

section Lists

variable {close : Char} {readPart : PartReader α} {Element : List Char → α → Prop}

def ReadsElements (readPart : PartReader α) (Element : List Char → α → Prop) : Prop :=
  ∀ text value rest, Element text value → Delimited rest →
    readPart (text ++ rest) = .ok (value, rest)

/-- No element begins as white space does, or with what closes its container. -/
def Starts (close : Char) (Element : List Char → α → Prop) : Prop :=
  ∀ text value, Element text value →
    ∃ first others, text = first :: others ∧ isSpace first = false ∧ first ≠ close

theorem sequence_start (starts : Starts close Element) {text : List Char}
    {values : List α} (spelled : Sequence close Element text values) (rest : List Char) :
    ∃ first others, text ++ rest = first :: others ∧ isSpace first = false ∧
      first ≠ close := by
  cases spelled with
  | last isElement | more isElement =>
      obtain ⟨first, others, rfl, solid, apart⟩ := starts _ _ isElement
      exact ⟨first, _, rfl, solid, apart⟩

theorem skipSpace_sequence (starts : Starts close Element) {text : List Char}
    {values : List α} (spelled : Sequence close Element text values) (rest : List Char) :
    skipSpace (text ++ rest) = text ++ rest := by
  obtain ⟨first, others, start, solid, _⟩ := sequence_start starts spelled rest
  rw [start, skipSpace_solid solid]

variable (closes : close = ']' ∨ close = '}')
include closes

theorem skipSpace_closed {gap : List Char} (isGap : Gap gap) (rest : List Char) :
    skipSpace (gap ++ close :: rest) = close :: rest := by
  rw [skipSpace_gap isGap]
  rcases closes with rfl | rfl <;> exact skipSpace_solid rfl rest

theorem readsParts_of_sequence (reads : ReadsElements readPart Element)
    (starts : Starts close Element) {text : List Char} {values : List α}
    (spelled : Sequence close Element text values) (rest : List Char) :
    ReadsParts close readPart (text ++ rest) (.ok (values, rest)) := by
  induction spelled with
  | @last text gap value isElement isGap =>
      have part : readPart (text ++ (gap ++ [close]) ++ rest) =
          .ok (value, gap ++ close :: rest) := by
        rw [List.append_assoc, List.append_assoc]
        exact reads _ _ _ isElement
          (delimited_gap isGap (delimited_cons (Or.inr closes) rest))
      exact .closed part (skipSpace_closed closes isGap rest)
  | @more text before after others value values isElement isBefore isAfter spelledOthers
      induction =>
      have part : readPart (text ++ (before ++ ',' :: (after ++ others)) ++ rest) =
          .ok (value, before ++ ',' :: (after ++ (others ++ rest))) := by
        rw [List.append_assoc, List.append_assoc, List.cons_append, List.append_assoc]
        exact reads _ _ _ isElement (delimited_gap isBefore (delimited_cons (Or.inl rfl) _))
      have separated : skipSpace (before ++ ',' :: (after ++ (others ++ rest))) =
          ',' :: (after ++ (others ++ rest)) := by
        rw [skipSpace_gap isBefore, skipSpace_solid rfl]
      have next : skipSpace (after ++ (others ++ rest)) = others ++ rest := by
        rw [skipSpace_gap isAfter, skipSpace_sequence starts spelledOthers]
      exact .more part separated (next ▸ induction)

theorem readsBody_of_body (reads : ReadsElements readPart Element)
    (starts : Starts close Element) {text : List Char} {values : List α}
    (spelled : Body close Element text values) (rest : List Char) :
    ReadsBody close readPart (text ++ rest) (.ok (values, rest)) := by
  cases spelled with
  | @empty gap isGap =>
      refine .empty ?_
      rw [List.append_assoc]
      exact skipSpace_closed closes isGap rest
  | @filled gap text values isGap spelled =>
      have begins : skipSpace (gap ++ text ++ rest) = text ++ rest := by
        rw [List.append_assoc, skipSpace_gap isGap, skipSpace_sequence starts spelled]
      refine .filled ?_ (begins ▸ readsParts_of_sequence closes reads starts spelled rest)
      intro after closed
      obtain ⟨first, others, start, _, apart⟩ := sequence_start starts spelled rest
      rw [begins, start] at closed
      exact apart (List.cons.inj closed).1

end Lists

/-! Arrays and objects. -/

section Containers

variable {readItem : ItemReader} {Item : List Char → Value → Prop}

def ReadsItems (readItem : ItemReader) (Item : List Char → Value → Prop) : Prop :=
  ∀ text value rest, Item text value → Delimited rest →
    Reads (readItem (text ++ rest)) value rest

def Opens (Item : List Char → Value → Prop) : Prop :=
  ∀ text value, Item text value → ∃ first rest, text = first :: rest ∧ Opening first

theorem ReadsItems.elements (reads : ReadsItems readItem Item) :
    ReadsElements (fun text => unbounded (readItem text)) Item :=
  fun text value rest isItem ends =>
    reads_iff_unbounded.mp (reads text value rest isItem ends)

theorem readArray_body (reads : ReadsItems readItem Item) (opens : Opens Item)
    {text : List Char} {items : List Value} (spelled : Body ']' Item text items)
    (rest : List Char) : Reads (readArray readItem (text ++ rest)) items rest := by
  have starts : Starts ']' Item := by
    intro text value isItem
    obtain ⟨first, others, rfl, opening⟩ := opens text value isItem
    exact ⟨first, others, rfl, opening.solid, opening.inside⟩
  have body := readsBody_of_body (Or.inl rfl) reads.elements starts spelled rest
  exact reads_iff_unbounded.mpr
    ((readArray_readsBody readItem (text ++ rest)).unique (by decide) body)

theorem readMember_append {readValue : PartReader Value}
    (reads : ReadsElements readValue Item) (opens : Opens Item) :
    ReadsElements (readMember readValue) (Member Item) := by
  intro text pair rest isMember delimited
  cases isMember with
  | @pair name before between text key value isName isBefore isBetween isItem =>
      obtain ⟨body, rfl, named⟩ := StringLiteral.read_append isName
      obtain ⟨first, others, rfl, opening⟩ := opens text value isItem
      have colon : skipSpace (before ++ ':' :: (between ++ (first :: others ++ rest))) =
          ':' :: (between ++ (first :: others ++ rest)) := by
        rw [skipSpace_gap isBefore, skipSpace_solid rfl]
      have next : skipSpace (between ++ (first :: others ++ rest)) =
          first :: others ++ rest := by
        rw [skipSpace_gap isBetween, List.cons_append, skipSpace_solid opening.solid]
      rw [List.append_assoc, List.append_assoc, List.cons_append, List.cons_append,
        List.append_assoc, readMember, named]
      simp only [colon, next, reads _ value rest isItem delimited]
      rfl

theorem starts_member : Starts '}' (Member Item) := by
  intro text pair isMember
  cases isMember with
  | pair isName =>
      cases isName with
      | quoted => exact ⟨'"', _, rfl, rfl, by decide⟩

theorem readObject_body (reads : ReadsItems readItem Item) (opens : Opens Item)
    {text : List Char} {pairs : List (Text × Value)}
    (spelled : Body '}' (Member Item) text pairs) (rest : List Char) :
    Reads (readObject readItem (text ++ rest)) (Ordered.putAll [] pairs) rest := by
  have body := readsBody_of_body (Or.inr rfl) (readMember_append reads.elements opens)
    starts_member spelled rest
  obtain ⟨parts, found, same⟩ := readObject_readsBody readItem (text ++ rest)
  obtain rfl := found.unique (by decide) body
  exact reads_iff_unbounded.mpr same

end Containers

/-! Values and whole texts. -/

theorem opens_denotes (depth : Nat) : Opens (Denotes depth) := by
  intro text value spelled
  have scalar (isScalar : Scalar text value) :
      ∃ first rest, text = first :: rest ∧ Opening first := by
    obtain ⟨first, rest, start, opening, _⟩ := opening_of_scalar isScalar
    exact ⟨first, rest, start, opening⟩
  cases depth with
  | zero => exact scalar spelled
  | succ depth =>
      rcases spelled with isScalar | isContainer
      · exact scalar isScalar
      · cases isContainer with
        | array => exact ⟨_, _, rfl, rfl, by decide, by decide⟩
        | object => exact ⟨_, _, rfl, rfl, by decide, by decide⟩

theorem readValue_scalar (dialect : Dialect) (depth : Nat) {text rest : List Char}
    {value : Value} (spelled : Scalar text value) (delimited : Delimited rest) :
    Reads (readValue dialect depth (text ++ rest)) value rest := by
  have scalar := readScalar_append dialect spelled delimited
  obtain ⟨first, others, rfl, _, noArray, noObject⟩ := opening_of_scalar spelled
  rw [reads_iff_unbounded, List.cons_append, unbounded_readValue_scalar dialect depth
    (fun _ same => noArray (List.cons.inj same).1)
    (fun _ same => noObject (List.cons.inj same).1)]
  exact scalar

theorem readValue_of_readArray {dialect : Dialect} {depth : Nat} {text rest : List Char}
    {items : List Value} (array : Reads (readArray (readValue dialect depth) text) items rest) :
    Reads (readValue dialect (depth + 1) ('[' :: text)) (.array items) rest := by
  rw [reads_iff_unbounded] at array ⊢
  rw [unbounded_readValue_array, array]
  rfl

theorem readValue_of_readObject {dialect : Dialect} {depth : Nat} {text rest : List Char}
    {members : Members}
    (object : Reads (readObject (readValue dialect depth) text) members rest) :
    Reads (readValue dialect (depth + 1) ('{' :: text)) (.object members) rest := by
  rw [reads_iff_unbounded] at object ⊢
  rw [unbounded_readValue_object, object]
  rfl

theorem readValue_append (dialect : Dialect) (depth : Nat) :
    ReadsItems (readValue dialect depth) (Denotes depth) := by
  induction depth with
  | zero =>
      intro text value rest spelled delimited
      exact readValue_scalar dialect 0 spelled delimited
  | succ depth induction =>
      intro text value rest spelled delimited
      rcases spelled with isScalar | isContainer
      · exact readValue_scalar dialect (depth + 1) isScalar delimited
      · cases isContainer with
        | @array body items spelled =>
            have array := readArray_body induction (opens_denotes depth) spelled rest
            exact readValue_of_readArray array
        | @object body pairs spelled =>
            have object := readObject_body induction (opens_denotes depth) spelled rest
            exact readValue_of_readObject object

theorem read_document {dialect : Dialect} {text : List Char} {value : Value}
    (spelled : Document depthLimit text value) : read dialect text = .ok value := by
  cases spelled with
  | @spaced before text after value isBefore spelled isAfter =>
      obtain ⟨first, others, start, opening⟩ := opens_denotes depthLimit text value spelled
      have ends : Delimited after := by
        have nothing : Delimited [] := fun _ head => nomatch head
        rw [← List.append_nil after]
        exact delimited_gap isAfter nothing
      have begins : skipSpace (before ++ (text ++ after)) = text ++ after := by
        rw [skipSpace_gap isBefore, start]
        exact skipSpace_solid opening.solid _
      have unmarked : ∀ rest, before ++ (text ++ after) ≠ '\uFEFF' :: rest := by
        intro rest marked
        rw [start] at marked
        cases before with
        | nil => exact absurd (List.cons.inj marked).1 opening.unmarked
        | cons space before =>
            have isSpace := isBefore space List.mem_cons_self
            rw [(List.cons.inj marked).1] at isSpace
            cases isSpace
      have taken := readValue_append dialect depthLimit text value after spelled ends
      have finished : skipSpace after = [] := by
        rw [← List.append_nil after, skipSpace_gap isAfter]
        rfl
      rw [read_unmarked dialect unmarked, begins, reads_iff_unbounded.mp taken]
      simp only [finished]

/-- A text that is no more than a number has the fault that the number has. -/
theorem read_of_number_fault (dialect : Dialect) {text : List Char}
    {literal : NumberLiteral} {fault : Fault} (spelled : Number text literal)
    (failed : literal.value = .error fault) : read dialect text = .error fault := by
  have ends : NumberLiteral.Stops NumberLiteral.MoreNumber [] := fun _ head => nomatch head
  have taken := NumberLiteral.take?_append spelled ends
  have scalar := readScalar_of_number dialect spelled []
  rw [List.append_nil] at taken scalar
  simp only [readNumber, taken, failed, Except.map] at scalar
  obtain ⟨first, rest, rfl, opening, noArray, noObject⟩ := opening_of_number spelled
  rw [read_unmarked dialect fun _ same => opening.unmarked (List.cons.inj same).1,
    skipSpace_solid opening.solid,
    unbounded_readValue_scalar dialect depthLimit
      (fun _ same => noArray (List.cons.inj same).1)
      (fun _ same => noObject (List.cons.inj same).1), scalar]

end PalletTypes.Json

import PalletTypes.Proofs.Decimal.Digits
import PalletTypes.Proofs.Json.Grammar
import PalletTypes.Proofs.Ordered
import PalletTypes.Proofs.Text.CodePoint

/-!
What makes a value one that can be read, and one that can be written. The first
bounds what the reader bounds and keeps names apart, as all that a text denotes
does; the second leaves out the doubles and the code points that no file may hold.
-/

namespace PalletTypes.Json

namespace Value

/-- Names are distinct in every object, no whole number has more digits than may be
read, and at most `depth` containers stand inside one another. -/
def Readable : (depth : Nat) → Value → Prop
  | _, .null | _, .bool _ | _, .float _ | _, .string _ => True
  | _, .integer value =>
      (Decimal.toDigits value.natAbs).length ≤ NumberLiteral.digitLimit
  | 0, .array _ | 0, .object _ => False
  | depth + 1, .array items => ∀ item ∈ items, Readable depth item
  | depth + 1, .object members =>
      (Ordered.keys members).Nodup ∧ ∀ member ∈ members, Readable depth member.2

mutual
/-- The code points of all names and strings, in the order in which they are
written. -/
def content : Value → Text
  | .string text => text
  | .array items => contentOfItems items
  | .object members => contentOfMembers members
  | _ => []

def contentOfItems : List Value → Text
  | [] => []
  | item :: items => item.content ++ contentOfItems items

def contentOfMembers : List (Text × Value) → Text
  | [] => []
  | (name, value) :: members => name ++ value.content ++ contentOfMembers members
end

/-- All doubles are finite, and no name or string has a surrogate. -/
structure Writable (value : Value) : Prop where
  finite : ∀ float ∈ value.floats, float.nonFinite? = none
  scalar : value.content.NoSurrogates

theorem floatsOfItems_eq (items : List Value) :
    floatsOfItems items = items.flatMap floats := by
  induction items with
  | nil => rfl
  | cons item items induction =>
      rw [floatsOfItems, induction, List.flatMap_cons]

theorem floatsOfMembers_eq (members : List (Text × Value)) :
    floatsOfMembers members = members.flatMap fun member => member.2.floats := by
  induction members with
  | nil => rfl
  | cons member members induction =>
      obtain ⟨name, value⟩ := member
      rw [floatsOfMembers, induction, List.flatMap_cons]

theorem contentOfItems_eq (items : List Value) :
    contentOfItems items = items.flatMap content := by
  induction items with
  | nil => rfl
  | cons item items induction =>
      rw [contentOfItems, induction, List.flatMap_cons]

theorem contentOfMembers_eq (members : List (Text × Value)) :
    contentOfMembers members =
      members.flatMap fun member => member.1 ++ member.2.content := by
  induction members with
  | nil => rfl
  | cons member members induction =>
      obtain ⟨name, value⟩ := member
      rw [contentOfMembers, induction, List.flatMap_cons]

theorem Writable.item {items : List Value} {item : Value}
    (writable : (Value.array items).Writable) (member : item ∈ items) :
    item.Writable := by
  obtain ⟨finite, scalar⟩ := writable
  rw [floats, floatsOfItems_eq] at finite
  rw [content, contentOfItems_eq] at scalar
  constructor
  · intro float isFloat
    exact finite float (List.mem_flatMap.mpr ⟨item, member, isFloat⟩)
  · intro codePoint inContent
    exact scalar codePoint (List.mem_flatMap.mpr ⟨item, member, inContent⟩)

theorem Writable.member {members : List (Text × Value)} {name : Text} {value : Value}
    (writable : (Value.object members).Writable) (member : (name, value) ∈ members) :
    name.NoSurrogates ∧ value.Writable := by
  obtain ⟨finite, scalar⟩ := writable
  rw [floats, floatsOfMembers_eq] at finite
  rw [content, contentOfMembers_eq] at scalar
  have both : (name ++ value.content).NoSurrogates := by
    intro codePoint inBoth
    exact scalar codePoint (List.mem_flatMap.mpr ⟨_, member, inBoth⟩)
  rw [Text.noSurrogates_append] at both
  refine ⟨both.1, ?_, both.2⟩
  intro float isFloat
  exact finite float (List.mem_flatMap.mpr ⟨_, member, isFloat⟩)

end Value

/-! What a text denotes can be read. -/

open Grammar

variable {α : Type}

theorem forall_of_sequence {close : Char} {Element : List Char → α → Prop}
    {p : α → Prop} (each : ∀ text value, Element text value → p value)
    {text : List Char} {values : List α} (spelled : Sequence close Element text values) :
    ∀ value ∈ values, p value := by
  induction spelled with
  | last element => exact List.forall_mem_singleton.mpr (each _ _ element)
  | more element _ _ _ induction =>
      exact List.forall_mem_cons.mpr ⟨each _ _ element, induction⟩

theorem forall_of_body {close : Char} {Element : List Char → α → Prop}
    {p : α → Prop} (each : ∀ text value, Element text value → p value)
    {text : List Char} {values : List α} (spelled : Body close Element text values) :
    ∀ value ∈ values, p value := by
  cases spelled with
  | empty => exact fun _ member => nomatch member
  | filled _ sequence => exact forall_of_sequence each sequence

theorem short_of_whole {digits : List Char}
    (isWhole : Whole digits) (short : digits.length ≤ NumberLiteral.digitLimit)
    {value : Int} (magnitude : value.natAbs = Decimal.ofDigits digits) :
    (Decimal.toDigits value.natAbs).length ≤ NumberLiteral.digitLimit := by
  rw [magnitude, Decimal.length_toDigits_le_iff (by decide)]
  calc Decimal.ofDigits digits
    _ < 10 ^ digits.length := Decimal.ofDigits_lt (isDigit_of_mem_whole isWhole)
    _ ≤ 10 ^ NumberLiteral.digitLimit := Nat.pow_le_pow_right (by decide) short

theorem readable_of_scalar {depth : Nat} {text : List Char} {value : Value}
    (spelled : Scalar text value) : value.Readable depth := by
  cases spelled with
  | null | true | false | string =>
      rw [Value.Readable]
      trivial
  | number spelled denoted =>
      cases denoted with
      | whole short =>
          cases spelled with
          | parts _ isWhole =>
              rw [Value.Readable]
              apply short_of_whole isWhole short
              split <;> omega
      | double =>
          rw [Value.Readable]
          trivial

theorem readable_of_denotes : (depth : Nat) → (text : List Char) → (value : Value) →
    Denotes depth text value → value.Readable depth
  | 0, _, _, spelled => readable_of_scalar spelled
  | depth + 1, text, value, spelled => by
      rcases spelled with isScalar | isContainer
      · exact readable_of_scalar isScalar
      · cases isContainer with
        | array body => exact forall_of_body (readable_of_denotes depth) body
        | @object body pairs spelled =>
            have each (text : List Char) (pair : Text × Value)
                (isMember : Member (Denotes depth) text pair) : pair.2.Readable depth := by
              cases isMember with
              | pair _ _ _ denoted => exact readable_of_denotes depth _ _ denoted
            refine ⟨Ordered.nodup_keys_putAll pairs Ordered.nodup_keys_nil, ?_⟩
            intro member inside
            rcases Ordered.mem_putAll inside with none | inPairs
            · cases none
            · exact forall_of_body each spelled member inPairs

theorem readable_of_document {depth : Nat} {text : List Char} {value : Value}
    (document : Document depth text value) : value.Readable depth := by
  cases document with
  | spaced _ denoted => exact readable_of_denotes depth _ _ denoted

end PalletTypes.Json

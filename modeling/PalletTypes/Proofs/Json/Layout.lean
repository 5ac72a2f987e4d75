import PalletTypes.Proofs.Json.Readable
import PalletTypes.Proofs.Json.WrittenNumber
import PalletTypes.Proofs.Json.WrittenString

/-!
The code points of a layout: its surrogates are those of the names and strings,
and it has no control characters but line feeds.
-/

namespace PalletTypes.Json

open Grammar

@[simp] theorem noSurrogates_newLine (depth : Nat) : (newLine depth).NoSurrogates :=
  Text.noSurrogates_ofChars _

theorem noSurrogates_minimal (codePoint : CodePoint) :
    Text.NoSurrogates (Escape.minimal codePoint) ↔ codePoint.isSurrogate = false := by
  cases codePoint with
  | scalar character => simp [Escape.minimal]
  | surrogate half => simp [Escape.minimal]

@[simp] theorem noSurrogates_writeString (text : Text) :
    (writeString .minimal text).NoSurrogates ↔ text.NoSurrogates := by
  have escaped : Text.NoSurrogates (text.flatMap Escape.minimal) ↔ text.NoSurrogates := by
    induction text with
    | nil => simp
    | cons codePoint text induction =>
        rw [List.flatMap_cons, Text.noSurrogates_append, Text.noSurrogates_cons,
          noSurrogates_minimal, induction]
  simp [writeString, escaped]

mutual
theorem noSurrogates_layout (depth : Nat) : (value : Value) →
    ((value.layout depth).NoSurrogates ↔ value.content.NoSurrogates)
  | .null | .bool true | .bool false | .integer _ | .float _ | .array [] | .object [] => by
      simp [Value.layout, writeScalar, Value.content, Value.contentOfItems,
        Value.contentOfMembers]
  | .string text => by simp [Value.layout, writeScalar, Value.content]
  | .array (item :: items) => by
      simp [Value.layout, Value.content, Value.contentOfItems,
        noSurrogates_layout (depth + 1) item, noSurrogates_layoutItems (depth + 1) items]
  | .object ((name, value) :: members) => by
      simp [Value.layout, Value.content, Value.contentOfMembers,
        noSurrogates_layout (depth + 1) value,
        noSurrogates_layoutMembers (depth + 1) members]

theorem noSurrogates_layoutItems (depth : Nat) : (items : List Value) →
    ((layoutItems depth items).NoSurrogates ↔ (Value.contentOfItems items).NoSurrogates)
  | [] => by simp [layoutItems, Value.contentOfItems]
  | item :: items => by
      simp [layoutItems, Value.contentOfItems,
        noSurrogates_layout depth item, noSurrogates_layoutItems depth items]

theorem noSurrogates_layoutMembers (depth : Nat) : (members : List (Text × Value)) →
    ((layoutMembers depth members).NoSurrogates ↔
      (Value.contentOfMembers members).NoSurrogates)
  | [] => by simp [layoutMembers, Value.contentOfMembers]
  | (name, value) :: members => by
      simp [layoutMembers, Value.contentOfMembers,
        noSurrogates_layout depth value, noSurrogates_layoutMembers depth members]
end

/-- No control character but line feeds. -/
def Plain (text : Text) : Prop :=
  ∀ codePoint ∈ text, codePoint = .scalar '\n' ∨ 0x20 ≤ codePoint.value

@[simp] theorem plain_nil : Plain [] := fun _ member => nomatch member

@[simp] theorem plain_cons {codePoint : CodePoint} {text : Text} :
    Plain (codePoint :: text) ↔
      (codePoint = .scalar '\n' ∨ 0x20 ≤ codePoint.value) ∧ Plain text :=
  List.forall_mem_cons

@[simp] theorem plain_append {first second : Text} :
    Plain (first ++ second) ↔ Plain first ∧ Plain second :=
  List.forall_mem_append

def Printable (text : List Char) : Prop :=
  ∀ character ∈ text, 0x20 ≤ character.toNat

instance (text : List Char) : Decidable (Printable text) :=
  decidable_of_iff (text.all fun character => 0x20 ≤ character.toNat)
    (by simp [Printable])

@[simp] theorem printable_nil : Printable [] := fun _ member => nomatch member

@[simp] theorem printable_cons {character : Char} {text : List Char} :
    Printable (character :: text) ↔ 0x20 ≤ character.toNat ∧ Printable text :=
  List.forall_mem_cons

@[simp] theorem printable_append {first second : List Char} :
    Printable (first ++ second) ↔ Printable first ∧ Printable second :=
  List.forall_mem_append

theorem plain_ofChars {characters : List Char} (printable : Printable characters) :
    Plain (Text.ofChars characters) := by
  intro codePoint member
  obtain ⟨character, inside, rfl⟩ := List.mem_map.mp member
  exact Or.inr (printable character inside)

@[simp] theorem plain_newLine (depth : Nat) : Plain (newLine depth) := by
  rw [newLine, Text.ofChars, List.map_cons, plain_cons]
  refine ⟨Or.inl rfl, plain_ofChars ?_⟩
  intro character member
  rw [List.eq_of_mem_replicate member]
  decide

theorem printable_of_isDigit {digit : Char} (isDigit : digit.isDigit = true) :
    0x20 ≤ digit.toNat :=
  Nat.le_trans (by decide) (Char.isDigit_iff_toNat.mp isDigit).1

theorem printable_of_number {text : List Char} {literal : NumberLiteral}
    (spelled : Number text literal) : Printable text :=
  forall_mem_number (fun _ => printable_of_isDigit) (List.all_iff_forall_prop.mp rfl) spelled

theorem printable_of_hexDigit? {character : Char} {digit : Nat}
    (named : hexDigit? character = some digit) : 0x20 ≤ character.toNat := by
  simp only [hexDigit?] at named
  split at named
  · omega
  · split at named
    · omega
    · split at named
      · omega
      · cases named

theorem printable_of_part {text : List Char} {part : Part} (spelled : PartText text part) :
    Printable text := by
  cases spelled with
  | plain printable => exact List.forall_mem_singleton.mpr printable
  | @letter letter character named =>
      have printable : 0x20 ≤ letter.toNat := by
        fun_cases StringLiteral.escaped? letter with
        | case9 => rw [StringLiteral.escaped?] at named <;> first | cases named | assumption
        | _ => decide
      simp [printable]
  | @number first second third fourth unit named =>
      unfold StringLiteral.unit? at named
      split at named
      · rename_i firstNamed secondNamed thirdNamed fourthNamed
        simp [printable_of_hexDigit? firstNamed, printable_of_hexDigit? secondNamed,
          printable_of_hexDigit? thirdNamed, printable_of_hexDigit? fourthNamed]
      · cases named

theorem printable_minimal (codePoint : CodePoint) :
    ∀ escaped ∈ Escape.minimal codePoint, 0x20 ≤ escaped.value := by
  cases codePoint with
  | scalar character =>
      obtain ⟨part, isPart, _⟩ := part_of_escape character
      exact List.forall_mem_map.mpr (printable_of_part isPart)
  | surrogate half =>
      refine List.forall_mem_singleton.mpr ?_
      exact Nat.le_trans (by decide) (Nat.le_add_right 0xD800 half.offset.val)

theorem printable_writeString (text : Text) :
    ∀ codePoint ∈ writeString .minimal text, 0x20 ≤ codePoint.value := by
  rw [writeString, List.cons_append, List.forall_mem_cons, List.forall_mem_append,
    List.forall_mem_flatMap, List.forall_mem_singleton]
  exact ⟨by decide, fun codePoint _ => printable_minimal codePoint, by decide⟩

@[simp] theorem plain_writeString (text : Text) : Plain (writeString .minimal text) :=
  fun codePoint member => .inr (printable_writeString text codePoint member)

@[simp] theorem plain_writeInteger (value : Int) :
    Plain (Text.ofChars (writeInteger value)) :=
  plain_ofChars (printable_of_number (spelled_writeInteger value))

theorem number_of_float {text : List Char} {float : Binary64}
    (spelled : Scalar text (.float float)) : ∃ literal, Number text literal := by
  cases spelled with
  | number spelled => exact ⟨_, spelled⟩

@[simp] theorem plain_write (float : Binary64) : Plain (Text.ofChars float.write) := by
  apply plain_ofChars
  cases float with
  | nonFinite kind => cases kind <;> decide
  | finite negative magnitude =>
      obtain ⟨literal, spelled⟩ := number_of_float (number_write negative magnitude)
      exact printable_of_number spelled

theorem plain_ofString {string : String} (printable : Printable string.toList) :
    Plain (Text.ofString string) :=
  plain_ofChars printable

@[simp] theorem plain_colon : Plain (Text.ofString ": ") :=
  plain_ofString (by decide)

mutual
theorem plain_layout (depth : Nat) : (value : Value) → Plain (value.layout depth)
  | .null | .bool true | .bool false => plain_ofString (by decide)
  | .array [] | .object [] => plain_ofChars (by decide)
  | .integer value => by simp [Value.layout, writeScalar]
  | .float value => by simp [Value.layout, writeScalar]
  | .string text => by simp [Value.layout, writeScalar]
  | .array (item :: items) => by
      simp [Value.layout, plain_layout (depth + 1) item,
        plain_layoutItems (depth + 1) items]
  | .object ((name, value) :: members) => by
      simp [Value.layout, plain_layout (depth + 1) value,
        plain_layoutMembers (depth + 1) members]

theorem plain_layoutItems (depth : Nat) : (items : List Value) →
    Plain (layoutItems depth items)
  | [] => plain_nil
  | item :: items => by
      simp [layoutItems, plain_layout depth item, plain_layoutItems depth items]

theorem plain_layoutMembers (depth : Nat) : (members : List (Text × Value)) →
    Plain (layoutMembers depth members)
  | [] => plain_nil
  | (name, value) :: members => by
      simp [layoutMembers, plain_layout depth value, plain_layoutMembers depth members]
end

theorem no_return_in_layout (depth : Nat) (value : Value) :
    '\r' ∉ (value.layout depth).characters := by
  intro member
  have plain := plain_layout depth value _ (Text.mem_characters.mp member)
  revert plain
  decide

end PalletTypes.Json

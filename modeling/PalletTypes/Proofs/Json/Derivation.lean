import PalletTypes.Proofs.Json.Layout

/-!
The layout of a value that can be read and written denotes the value.
-/

namespace PalletTypes.Json

open Grammar

theorem gap_newLine (depth : Nat) : Gap (newLine depth).characters := by
  rw [newLine, Text.characters_ofChars]
  refine List.forall_mem_cons.mpr ⟨rfl, ?_⟩
  intro character member
  rw [List.eq_of_mem_replicate member]
  rfl

section Sequences

variable {Item : List Char → Value → Prop} {indent : Nat} {ending : List Char}

theorem sequence_layoutItems (isGap : Gap ending) {first : Value} {items : List Value}
    (all : ∀ item ∈ first :: items, Item (item.layout indent).characters item) :
    Sequence ']' Item ((first.layout indent).characters ++
      ((layoutItems indent items).characters ++ (ending ++ [']']))) (first :: items) := by
  induction items generalizing first with
  | nil => exact .last (all first List.mem_cons_self) isGap
  | cons second items induction =>
      have others := induction fun item member => all item (List.mem_cons_of_mem _ member)
      have sequence := Sequence.more (all first List.mem_cons_self) gap_nil
        (gap_newLine indent) others
      simpa [layoutItems] using sequence

theorem member_layout {name : Text} {value : Value} (clean : name.NoSurrogates)
    (denoted : Item (value.layout indent).characters value) :
    Member Item ((writeString .minimal name).characters ++
      (':' :: ' ' :: (value.layout indent).characters)) (name, value) := by
  have space : Gap [' '] := List.forall_mem_singleton.mpr rfl
  exact .pair (stringText_writeString clean) gap_nil space denoted

theorem sequence_layoutMembers (isGap : Gap ending) {name : Text} {value : Value}
    {members : List (Text × Value)}
    (all : ∀ member ∈ (name, value) :: members, member.1.NoSurrogates ∧
      Item (member.2.layout indent).characters member.2) :
    Sequence '}' (Member Item) ((writeString .minimal name).characters ++
      (':' :: ' ' :: (value.layout indent).characters) ++
        ((layoutMembers indent members).characters ++ (ending ++ ['}'])))
      ((name, value) :: members) := by
  obtain ⟨clean, denoted⟩ := all (name, value) List.mem_cons_self
  have isMember := member_layout clean denoted
  induction members generalizing name value with
  | nil => exact .last isMember isGap
  | cons second members induction =>
      obtain ⟨clean, denoted⟩ := all second (List.mem_cons_of_mem _ List.mem_cons_self)
      have others := induction (fun member inside => all member (List.mem_cons_of_mem _ inside))
        clean denoted (member_layout clean denoted)
      have sequence := Sequence.more isMember gap_nil (gap_newLine indent) others
      simpa [layoutMembers, Text.ofString] using sequence

end Sequences

theorem scalar_float {float : Binary64} (finite : float.nonFinite? = none) :
    Scalar float.write (.float float) := by
  cases float with
  | nonFinite kind => cases finite
  | finite negative magnitude => exact number_write negative magnitude

theorem denotes_layout : (depth indent : Nat) → (value : Value) →
    value.Readable depth → value.Writable →
      Denotes depth (value.layout indent).characters value
  | _, _, .null, _, _ => denotes_of_scalar .null
  | _, _, .bool true, _, _ => denotes_of_scalar .true
  | _, _, .bool false, _, _ => denotes_of_scalar .false
  | depth, indent, .integer value, readable, _ => by
      rw [Value.Readable] at readable
      change Denotes depth (Text.ofChars (writeInteger value)).characters _
      rw [Text.characters_ofChars]
      exact denotes_of_scalar (number_writeInteger readable)
  | depth, indent, .float value, _, writable => by
      change Denotes depth (Text.ofChars value.write).characters _
      rw [Text.characters_ofChars]
      exact denotes_of_scalar (scalar_float (writable.finite value List.mem_cons_self))
  | _, _, .string _, _, writable =>
      denotes_of_scalar (.string (stringText_writeString writable.scalar))
  | depth + 1, indent, .array [], _, _ => by
      exact Or.inr (.array (.empty gap_nil))
  | depth + 1, indent, .object [], _, _ => by
      exact Or.inr (.object (.empty gap_nil))
  | depth + 1, indent, .array (item :: items), readable, writable => by
      have sequence := sequence_layoutItems (gap_newLine indent) fun other member =>
        denotes_layout depth (indent + 1) other (readable other member)
          (writable.item member)
      have container := Container.array (.filled (gap_newLine (indent + 1)) sequence)
      refine Or.inr ?_
      simpa [Value.layout] using container
  | depth + 1, indent, .object ((name, value) :: members), readable, writable => by
      have sequence := sequence_layoutMembers (gap_newLine indent) fun other member =>
        ⟨(writable.member member).1, denotes_layout depth (indent + 1) other.2
          (readable.2 other member) (writable.member member).2⟩
      have container := Container.object (.filled (gap_newLine (indent + 1)) sequence)
      rw [Ordered.putAll_nil_eq_self readable.1] at container
      refine Or.inr ?_
      simpa [Value.layout, Text.ofString] using container

end PalletTypes.Json

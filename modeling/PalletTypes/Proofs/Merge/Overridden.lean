import PalletTypes.Proofs.Merge

/-!
Layers that differ only where a later layer overrides them. They merge into maps with the
same entries, perhaps in another order.
-/

namespace PalletTypes.Ordered

variable {κ ν : Type} [DecidableEq κ]

/-- The layers hold the same at every key but those that a later layer has. -/
inductive SameUnlessOverridden : List (List (κ × ν)) → List (List (κ × ν)) → Prop
  | nil : SameUnlessOverridden [] []
  | cons {layer other : List (κ × ν)} {layers others : List (List (κ × ν))} :
      (∀ key, lookup? key layer = lookup? key other ∨ ∃ later ∈ layers, key ∈ keys later) →
        SameUnlessOverridden layers others →
          SameUnlessOverridden (layer :: layers) (other :: others)

namespace SameUnlessOverridden

variable {layers others : List (List (κ × ν))}

theorem refl : (layers : List (List (κ × ν))) → SameUnlessOverridden layers layers
  | [] => .nil
  | _ :: layers => .cons (fun _ => .inl rfl) (refl layers)

theorem append_left (below : List (List (κ × ν))) (same : SameUnlessOverridden layers others) :
    SameUnlessOverridden (below ++ layers) (below ++ others) := by
  induction below with
  | nil => exact same
  | cons layer below induction => exact .cons (fun _ => .inl rfl) induction

theorem findSome?_eq (same : SameUnlessOverridden layers others) (key : κ) :
    layers.reverse.findSome? (lookup? key) = others.reverse.findSome? (lookup? key) := by
  induction same with
  | nil => rfl
  | @cons layer other layers others here _ induction =>
      rw [List.reverse_cons, List.reverse_cons, List.findSome?_append, List.findSome?_append,
        ← induction, List.findSome?_singleton, List.findSome?_singleton]
      rcases here key with alike | ⟨later, member, named⟩
      · rw [alike]
      · have overridden : (layers.reverse.findSome? (lookup? key)).isSome :=
          List.findSome?_isSome_iff.mpr
            ⟨later, List.mem_reverse.mpr member, lookup?_isSome_iff.mpr named⟩
        rw [Option.or_of_isSome overridden, Option.or_of_isSome overridden]

theorem mem_stack_iff (same : SameUnlessOverridden layers others)
    (distinct : ∀ layer ∈ layers, (keys layer).Nodup)
    (distinctOthers : ∀ layer ∈ others, (keys layer).Nodup) (entry : κ × ν) :
    entry ∈ stack layers ↔ entry ∈ stack others := by
  obtain ⟨key, value⟩ := entry
  rw [mem_iff_lookup? (nodup_keys_stack layers), mem_iff_lookup? (nodup_keys_stack others),
    lookup?_stack key distinct, lookup?_stack key distinctOthers, same.findSome?_eq]

end SameUnlessOverridden

/-- Without the entries of one layer, what is left of the whole is what the other layers
give. -/
theorem mem_stack_of_emptied {before after : List (List (κ × ν))} {layer : List (κ × ν)}
    (distinct : ∀ other ∈ before ++ layer :: after, (keys other).Nodup) {entry : κ × ν}
    (member : entry ∈ stack (before ++ layer :: after)) :
    entry ∈ layer ∨ entry ∈ stack (before ++ [] :: after) := by
  obtain ⟨key, value⟩ := entry
  have distinctLayer := distinct layer (by simp)
  have distinctEmptied : ∀ other ∈ before ++ [] :: after, (keys other).Nodup := by
    simp only [List.forall_mem_append, List.forall_mem_cons] at distinct ⊢
    exact ⟨distinct.1, nodup_keys_nil, distinct.2.2⟩
  rw [mem_iff_lookup? (nodup_keys_stack _), lookup?_stack key distinct] at member
  rw [mem_iff_lookup? distinctLayer, mem_iff_lookup? (nodup_keys_stack _),
    lookup?_stack key distinctEmptied]
  simp only [List.reverse_append, List.reverse_cons, List.findSome?_append,
    List.findSome?_singleton, lookup?, Option.or_none] at member ⊢
  cases upper : after.reverse.findSome? (lookup? key) with
  | some held =>
      rw [upper] at member
      exact .inr member
  | none =>
      rw [upper, Option.none_or] at member
      rcases Option.or_eq_some_iff.mp member with here | ⟨_, lower⟩
      · exact .inl here
      · exact .inr lower

end PalletTypes.Ordered

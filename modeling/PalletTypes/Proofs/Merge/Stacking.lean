import PalletTypes.Proofs.Merge

/-!
Laws of maps put upon one another. They may be grouped in any way: what is put into a map
that is put itself may as well be put afterwards. And keys may be left out of the layers
or of the whole.
-/

namespace PalletTypes.Ordered

variable {κ ν : Type} [DecidableEq κ]

theorem putAll_append (entries first second : List (κ × ν)) :
    putAll entries (first ++ second) = putAll (putAll entries first) second :=
  List.foldl_append

theorem putAll_put {entries added : List (κ × ν)} (key : κ) (value : ν)
    (distinct : (keys entries).Nodup) (distinctAdded : (keys added).Nodup) :
    putAll entries (put key value added) = put key value (putAll entries added) := by
  have distinctPut := nodup_keys_put key value distinctAdded
  refine ext (nodup_keys_putAll _ distinct) ?_ fun other => ?_
  · rw [keys_put, keys_putAll _ distinct, keys_putAll _ distinct, keys_put]
    by_cases present : key ∈ keys added
    · rw [if_pos present, if_pos (by simp [present])]
    · rw [if_neg present, ← List.append_assoc, List.eraseDups_append, List.cons_removeAll]
      by_cases known : key ∈ keys entries <;> simp [present, known, List.eraseDups_cons]
  · rw [lookup?_put, lookup?_putAll other _ distinctPut, lookup?_putAll other _ distinctAdded,
      lookup?_put]
    split <;> rfl

theorem putAll_putAll {entries below : List (κ × ν)} (added : List (κ × ν))
    (distinct : (keys entries).Nodup) (distinctBelow : (keys below).Nodup) :
    putAll (putAll entries below) added = putAll entries (putAll below added) := by
  induction added generalizing below with
  | nil => rfl
  | cons entry rest induction =>
      obtain ⟨key, value⟩ := entry
      rw [putAll_cons, putAll_cons, ← putAll_put key value distinct distinctBelow]
      exact induction (nodup_keys_put key value distinctBelow)

theorem length_putAll {entries added : List (κ × ν)} (distinct : (keys entries).Nodup)
    (distinctAdded : (keys added).Nodup) :
    (putAll entries added).length +
        ((keys added).filter fun key => (lookup? key entries).isSome).length =
      entries.length + added.length := by
  have sizes (entries : List (κ × ν)) : (keys entries).length = entries.length :=
    List.length_map _
  have fresh : (keys added).removeAll (keys entries) =
      (keys added).filter fun key => !(lookup? key entries).isSome := by
    refine List.filter_congr fun key _ => ?_
    rw [Bool.eq_iff_iff]
    simp [← lookup?_isSome_iff]
  have split := List.length_eq_length_filter_add (l := keys added)
    fun key => (lookup? key entries).isSome
  have all := congrArg List.length (keys_putAll added distinct)
  rw [List.eraseDups_append, eraseDups_eq_self distinct, fresh,
    eraseDups_eq_self (distinctAdded.filter _), List.length_append] at all
  simp only [sizes] at split all
  omega

/-- Pairs with repeated keys may be made a map before they are put. -/
theorem putAll_putAll_nil {entries : List (κ × ν)} (pairs : List (κ × ν))
    (distinct : (keys entries).Nodup) :
    putAll entries (putAll [] pairs) = putAll entries pairs :=
  (putAll_putAll pairs distinct nodup_keys_nil).symm

theorem putAll_cut {entries : List (κ × ν)} (first second : List (κ × ν))
    (distinct : (keys entries).Nodup) :
    putAll entries (putAll [] (first ++ second)) =
      putAll (putAll entries (putAll [] first)) (putAll [] second) := by
  rw [putAll_putAll_nil _ distinct, putAll_putAll_nil _ distinct,
    putAll_putAll_nil _ (nodup_keys_putAll first distinct), putAll_append]

theorem foldl_putAll_eq {entries : List (κ × ν)} (layers : List (List (κ × ν)))
    (distinct : (keys entries).Nodup) :
    layers.foldl putAll entries = putAll entries (stack layers) := by
  induction layers using List.reverseRecOn with
  | nil => rfl
  | append_singleton layers layer induction =>
      rw [List.foldl_append, induction, stack_append_singleton]
      exact putAll_putAll layer distinct (nodup_keys_stack layers)

theorem stack_append (first second : List (List (κ × ν))) :
    stack (first ++ second) = stack [stack first, stack second] := by
  have distinct := nodup_keys_stack first
  calc stack (first ++ second)
    _ = second.foldl putAll (stack first) := List.foldl_append
    _ = putAll (stack first) (stack second) := foldl_putAll_eq second distinct
    _ = putAll (putAll [] (stack first)) (stack second) := by
      rw [putAll_nil_eq_self distinct]

/-- A map without the given keys; the others keep their values and their order. -/
def without (names : List κ) (entries : List (κ × ν)) : List (κ × ν) :=
  entries.filter fun entry => entry.1 ∉ names

theorem without_put {names : List κ} (key : κ) (value : ν) (entries : List (κ × ν)) :
    without names (put key value entries) =
      if key ∈ names then without names entries
      else put key value (without names entries) := by
  induction entries with
  | nil => by_cases out : key ∈ names <;> simp [without, put, out]
  | cons entry rest induction =>
      obtain ⟨other, held⟩ := entry
      unfold without at induction ⊢
      by_cases same : other = key
      · by_cases out : key ∈ names <;> simp [put, same, out]
      · by_cases out : key ∈ names <;> by_cases outOther : other ∈ names <;>
          simp_all [put]

theorem without_putAll (names : List κ) (entries added : List (κ × ν)) :
    without names (putAll entries added) =
      putAll (without names entries) (without names added) := by
  induction added generalizing entries with
  | nil => rfl
  | cons entry rest induction =>
      obtain ⟨key, value⟩ := entry
      rw [putAll_cons, induction, without_put]
      by_cases out : key ∈ names <;> simp [without, out]

theorem without_stack (names : List κ) (layers : List (List (κ × ν))) :
    without names (stack layers) = stack (layers.map (without names)) := by
  induction layers using List.reverseRecOn with
  | nil => rfl
  | append_singleton layers layer induction =>
      rw [stack_append_singleton, without_putAll, induction, List.map_append,
        List.map_singleton, stack_append_singleton]

theorem without_eq_nil {names : List κ} {entries : List (κ × ν)}
    (all : keys entries ⊆ names) : without names entries = [] := by
  refine List.filter_eq_nil_iff.mpr fun entry member => ?_
  simpa using all (List.mem_map_of_mem member)

/-! Two stacks over the same lower layers that differ in the layer of one name, wherever
that name stands in the list. -/

section Alike

variable {ι : Type} {lower : List (List (κ × ν))} {names : List ι} {name : ι}
  {layerOf otherOf : ι → List (κ × ν)}

theorem without_stack_alike
    (same : ∀ other ∈ names, other ≠ name → otherOf other = layerOf other) :
    without (keys (layerOf name) ++ keys (otherOf name))
        (stack (lower ++ names.map layerOf)) =
      without (keys (layerOf name) ++ keys (otherOf name))
        (stack (lower ++ names.map otherOf)) := by
  rw [without_stack, without_stack, List.map_append, List.map_append, List.map_map,
    List.map_map]
  congr 2
  refine List.map_congr_left fun other member => ?_
  by_cases here : other = name
  · -- Both layers of the one name are left out as wholes.
    rw [here, Function.comp_apply, Function.comp_apply,
      without_eq_nil (List.subset_append_left _ _),
      without_eq_nil (List.subset_append_right _ _)]
  · rw [Function.comp_apply, Function.comp_apply, same other member here]

theorem lookup?_stack_alike {before after : List ι} {later : ι} {key : κ}
    (same : ∀ other ∈ before ++ after, other ≠ name → otherOf other = layerOf other)
    (last : name ∉ after) (distinct : ∀ other ∈ after, (keys (layerOf other)).Nodup)
    (member : later ∈ after) (named : key ∈ keys (layerOf later)) :
    lookup? key (stack (lower ++ (before ++ after).map otherOf)) =
      lookup? key (stack (lower ++ (before ++ after).map layerOf)) := by
  have sameAfter : after.map otherOf = after.map layerOf := by
    refine List.map_congr_left fun other inAfter => ?_
    exact same other (List.mem_append_right _ inAfter) fun here => last (here ▸ inAfter)
  have distinctAfter : ∀ layer ∈ after.map layerOf, (keys layer).Nodup :=
    List.forall_mem_map.mpr distinct
  obtain ⟨value, found⟩ : ∃ value,
      (after.map layerOf).reverse.findSome? (lookup? key) = some value := by
    refine Option.ne_none_iff_exists'.mp fun none => ?_
    rw [List.findSome?_eq_none_iff] at none
    have inLayers : layerOf later ∈ (after.map layerOf).reverse :=
      List.mem_reverse.mpr (List.mem_map_of_mem member)
    exact lookup?_eq_none_iff.mp (none _ inLayers) named
  -- The layers after the name are those of both stacks, and the key is found there.
  have onAfter (layers : List (List (κ × ν))) :
      lookup? key (stack (layers ++ after.map layerOf)) = some value := by
    rw [stack, List.foldl_append, lookup?_foldl_putAll key _ distinctAfter, found]
    rfl
  rw [List.map_append, List.map_append, sameAfter, ← List.append_assoc, ← List.append_assoc,
    onAfter, onAfter]

theorem mem_keys_stack_alike
    (same : ∀ other ∈ names, other ≠ name → otherOf other = layerOf other) {key : κ}
    (here : key ∈ keys (stack (lower ++ names.map layerOf)))
    (gone : key ∉ keys (stack (lower ++ names.map otherOf))) :
    key ∈ keys (layerOf name) ∧ (∀ layer ∈ lower, key ∉ keys layer) ∧
      ∀ other ∈ names, other ≠ name → key ∉ keys (layerOf other) := by
  have nowhere : ∀ layer ∈ lower ++ names.map otherOf, key ∉ keys layer :=
    fun layer member named => gone (mem_keys_stack.mpr ⟨layer, member, named⟩)
  rw [List.forall_mem_append, List.forall_mem_map] at nowhere
  obtain ⟨noLower, noOther⟩ := nowhere
  have others : ∀ other ∈ names, other ≠ name → key ∉ keys (layerOf other) :=
    fun other member apart => same other member apart ▸ noOther other member
  refine ⟨?_, noLower, others⟩
  obtain ⟨layer, inLayers, named⟩ := mem_keys_stack.mp here
  rcases List.mem_append.mp inLayers with inLower | inNames
  · exact absurd named (noLower layer inLower)
  · obtain ⟨other, member, rfl⟩ := List.mem_map.mp inNames
    by_cases isName : other = name
    · exact isName ▸ named
    · exact absurd named (others other member isName)

end Alike

end PalletTypes.Ordered

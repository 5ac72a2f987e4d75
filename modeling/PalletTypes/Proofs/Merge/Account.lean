import PalletTypes.Proofs.Merge.Stacking
import PalletTypes.Report

/-!
The account of a merge: where every name comes from, and what is told on the way. Each
occurrence of a name in a layer either brings the name in or is told as an override.
-/

namespace PalletTypes.Merge

open Json

/-- The occurrences of names that an earlier layer has, in the order of the layers and
of the places in each. -/
def repeated (layers : List Members) : List Text :=
  layers.zipIdx.flatMap fun (layer, place) =>
    (Ordered.keys layer).filter (· ∈ (layers.take place).flatMap Ordered.keys)

theorem repeated_append_singleton (layers : List Members) (layer : Members) :
    repeated (layers ++ [layer]) =
      repeated layers ++
        (Ordered.keys layer).filter (· ∈ layers.flatMap Ordered.keys) := by
  unfold repeated
  rw [List.zipIdx_append, List.flatMap_append]
  congr 1
  · -- No earlier layer changes where one more comes after all of them.
    refine List.flatMap_congr fun (other, place) member => ?_
    have before : place ≤ layers.length := Nat.le_of_lt (List.snd_lt_of_mem_zipIdx member)
    simp only [List.take_append_of_le_length before]
  · simp

theorem ofLayers_append_singleton (layers : List Members) (layer : Members) :
    ofLayers (layers ++ [layer]) = (ofLayers layers).add layer :=
  List.foldl_append

theorem clashes_stack (layers : List Members) (layer : Members) :
    clashes (Ordered.stack layers) layer =
      (Ordered.keys layer).filter (· ∈ layers.flatMap Ordered.keys) := by
  refine List.filter_congr fun name _ => ?_
  rw [Bool.eq_iff_iff, decide_eq_true_iff, Ordered.lookup?_isSome_iff,
    Ordered.mem_keys_stack, List.mem_flatMap]

theorem overridden_ofLayers (layers : List Members) :
    (ofLayers layers).overridden = repeated layers := by
  induction layers using List.reverseRecOn with
  | nil => rfl
  | append_singleton layers layer induction =>
      rw [ofLayers_append_singleton, repeated_append_singleton, ← induction, add,
        types_ofLayers, clashes_stack]

theorem length_add (merge : Merge) {layer : Members}
    (distinct : (Ordered.keys merge.types).Nodup)
    (distinctLayer : (Ordered.keys layer).Nodup) :
    (merge.add layer).types.length + (merge.add layer).overridden.length =
      merge.types.length + merge.overridden.length + layer.length := by
  have counted : (Ordered.putAll merge.types layer).length +
      (clashes merge.types layer).length = merge.types.length + layer.length :=
    Ordered.length_putAll distinct distinctLayer
  simp only [add, List.length_append]
  omega

theorem length_ofLayers {layers : List Members}
    (distinct : ∀ layer ∈ layers, (Ordered.keys layer).Nodup) :
    layers.flatten.length =
      (ofLayers layers).types.length + (ofLayers layers).overridden.length := by
  induction layers using List.reverseRecOn with
  | nil => rfl
  | append_singleton layers layer induction =>
      rw [List.forall_mem_append, List.forall_mem_singleton] at distinct
      have distinctTypes : (Ordered.keys (ofLayers layers).types).Nodup := by
        rw [types_ofLayers]
        exact Ordered.nodup_keys_stack layers
      rw [ofLayers_append_singleton, length_add _ distinctTypes distinct.2,
        ← induction distinct.1]
      simp

theorem types_ofLayers_append (first second : List Members) :
    (ofLayers (first ++ second)).types =
      (ofLayers [(ofLayers first).types, (ofLayers second).types]).types := by
  rw [types_ofLayers, types_ofLayers, types_ofLayers, types_ofLayers, Ordered.stack_append]

theorem line_overridden (name : Text) :
    (Event.overridden name).line = "DEBUG: type " ++ name.quoted ++ " overridden" := by
  change "DEBUG" ++ ": " ++ ("type " ++ name.quoted ++ " overridden") = _
  generalize name.quoted = quoted
  simp only [← String.append_assoc]
  rfl

/-- The names of a merge stand in the order in which they first occur, each with the
value of the last layer that has it. Told are, in order, exactly the occurrences of names
that an earlier layer has, so every member is either counted or told. And the layers may
be merged in two parts, and then the parts. -/
theorem ofLayers_account {layers : List Members}
    (distinct : ∀ layer ∈ layers, (Ordered.keys layer).Nodup) :
    Ordered.keys (ofLayers layers).types = (layers.flatMap Ordered.keys).eraseDups ∧
      (∀ name, Ordered.lookup? name (ofLayers layers).types =
        layers.reverse.findSome? (Ordered.lookup? name)) ∧
      ((ofLayers layers).overridden.map Event.overridden).map Event.line =
        (repeated layers).map (fun name => "DEBUG: type " ++ name.quoted ++ " overridden") ∧
      layers.flatten.length =
        (ofLayers layers).types.length + (ofLayers layers).overridden.length ∧
      ∀ first second, layers = first ++ second →
        (ofLayers layers).types =
          (ofLayers [(ofLayers first).types, (ofLayers second).types]).types := by
  refine ⟨?_, ?_, ?_, length_ofLayers distinct, ?_⟩
  · rw [types_ofLayers, Ordered.keys_stack]
    congr 1
    exact lawful_beq_subsingleton _ _
  · intro name
    rw [types_ofLayers, Ordered.lookup?_stack name distinct]
  · rw [overridden_ofLayers, List.map_map]
    refine List.map_congr_left fun name _ => ?_
    exact line_overridden name
  · rintro first second rfl
    exact types_ofLayers_append first second

def sampleLayers : List Members :=
  [[(Text.ofString "a", .integer 1), (Text.ofString "b", .integer 2)],
    [(Text.ofString "c", .null), (Text.ofString "b", .integer 3)],
    [(Text.ofString "b", .integer 4), (Text.ofString "d", .null),
      (Text.ofString "a", .integer 5)]]

theorem ofLayers_account_sampleLayers :
    (∀ layer ∈ sampleLayers, (Ordered.keys layer).Nodup) ∧
      Ordered.keys (ofLayers sampleLayers).types = ["a", "b", "c", "d"].map Text.ofString ∧
      Ordered.lookup? (Text.ofString "b") (ofLayers sampleLayers).types =
        some (.integer 4) ∧
      ((ofLayers sampleLayers).overridden.map Event.overridden).map Event.line =
        ["DEBUG: type 'b' overridden", "DEBUG: type 'b' overridden",
          "DEBUG: type 'a' overridden"] ∧
      (ofLayers sampleLayers).types.length + (ofLayers sampleLayers).overridden.length = 7 ∧
      (ofLayers sampleLayers).types =
        (ofLayers [(ofLayers (sampleLayers.take 1)).types,
          (ofLayers (sampleLayers.drop 1)).types]).types := by
  have distinct : ∀ layer ∈ sampleLayers, (Ordered.keys layer).Nodup := by decide
  obtain ⟨names, values, told, counted, parts⟩ := ofLayers_account distinct
  refine ⟨distinct, ?_, ?_, ?_, counted.symm, parts _ _ rfl⟩
  · rw [names]
    decide
  · rw [values]
    rfl
  · rw [told]
    decide +kernel

end PalletTypes.Merge

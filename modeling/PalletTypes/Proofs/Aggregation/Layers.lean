import PalletTypes.Proofs.Aggregation.Content
import PalletTypes.Proofs.Aggregation.Steps

/-!
The layers that a plan merges. All of them are readable, so the merged types are,
and what the plan writes is read as the merged types.
-/

namespace PalletTypes

open Json

theorem readable_stack {depth : Nat} {layers : List Members}
    (each : ∀ layer ∈ layers, (Value.object layer).Readable (depth + 1)) :
    (Value.object (Ordered.stack layers)).Readable (depth + 1) := by
  refine ⟨Ordered.nodup_keys_stack layers, ?_⟩
  intro member inside
  obtain ⟨layer, inLayers, inLayer⟩ := Ordered.mem_stack inside
  exact (each layer inLayers).2 member inLayer

theorem nodup_keys_of_readable {depth : Nat} {types : Members}
    (readable : (Value.object types).Readable depth) : (Ordered.keys types).Nodup := by
  cases depth with
  | zero => cases readable
  | succ depth => exact readable.1

theorem Seeds.readable_standard : ∀ layer ∈ Seeds.standard.layers,
    (Value.object layer).Readable depthLimit := by
  intro layer member
  simp only [Seeds.layers, Seeds.standard, List.mem_cons, List.not_mem_nil, or_false] at member
  rcases member with rfl | rfl
  · exact ⟨List.nodup_nil, fun _ none => nomatch none⟩
  · refine ⟨List.nodup_singleton _, List.forall_mem_singleton.mpr ?_⟩
    trivial

namespace Workspace

variable {workspace : Workspace} {site : Site} {request : Request}

theorem readable_of_loadTypes {path : Path} {layer : Members}
    (loaded : workspace.loadTypes path = .ok layer) :
    (Value.object layer).Readable depthLimit := by
  obtain ⟨content, _, decoded⟩ := loadTypes_eq_ok_iff.mp loaded
  exact readable_of_decodeTypes decoded

theorem readable_of_all_loaded {paths : List Path} {layers : List Members}
    (loaded : List.Forall₂ (fun path layer => workspace.loadTypes path = .ok layer)
      paths layers) : ∀ layer ∈ layers, (Value.object layer).Readable depthLimit := by
  induction loaded with
  | nil => exact fun _ none => nomatch none
  | cons here _ induction =>
      exact List.forall_mem_cons.mpr ⟨readable_of_loadTypes here, induction⟩

section Merged

variable {plan : Plan} {root : Path} {layers : List Members}

theorem Merges.readable (merges : workspace.Merges site request plan root layers)
    (seeds : ∀ layer ∈ request.seeds.layers, (Value.object layer).Readable depthLimit) :
    ∀ layer ∈ request.seeds.layers ++ layers, (Value.object layer).Readable depthLimit :=
  List.forall_mem_append.mpr ⟨seeds, readable_of_all_loaded merges.loaded⟩

theorem Merges.decoded (merges : workspace.Merges site request plan root layers)
    (seeds : ∀ layer ∈ request.seeds.layers, (Value.object layer).Readable depthLimit)
    (path : Path) : decodeTypes path plan.content =
      .ok (Ordered.stack (request.seeds.layers ++ layers)) :=
  decodeTypes_of_encodeTypes (readable_stack (merges.readable seeds)) merges.encoded path

end Merged

end Workspace

end PalletTypes

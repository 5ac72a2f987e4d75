import PalletTypes.Proofs.Aggregation.Result

/-!
Aggregating again changes nothing. The files of the pallets are those from before,
or the output where they are one file; and a layer that the merged types take the
place of does not change the merged types.
-/

namespace PalletTypes.Workspace

open Json

variable {workspace : Workspace} {site : Site} {request : Request}

theorem loadTypes_after_aggregate {plan : Plan} {root output path : Path}
    {layers : List Members} {layer : Members}
    (merges : workspace.Merges site request plan root layers)
    (seeds : ∀ layer ∈ request.seeds.layers, (Value.object layer).Readable depthLimit)
    (done : (workspace.aggregate site request).result = .ok output)
    (loaded : workspace.loadTypes path = .ok layer) :
    ∃ other, (workspace.aggregate site request).workspace.loadTypes path = .ok other ∧
      (other = layer ∨ other = Ordered.stack (request.seeds.layers ++ layers)) := by
  have planned := plan_eq_ok_iff.mpr ⟨root, layers, merges⟩
  obtain ⟨content, held, decoded⟩ := loadTypes_eq_ok_iff.mp loaded
  rcases readFile_after_aggregate planned done held with same | overwritten
  · exact ⟨layer, loadTypes_eq_ok_iff.mpr ⟨content, same, decoded⟩, Or.inl rfl⟩
  · have whole := merges.decoded seeds path
    exact ⟨_, loadTypes_eq_ok_iff.mpr ⟨plan.content, overwritten, whole⟩, Or.inr rfl⟩

theorem loaded_after_aggregate {plan : Plan} {root output : Path} {paths : List Path}
    {layers some : List Members}
    (merges : workspace.Merges site request plan root layers)
    (seeds : ∀ layer ∈ request.seeds.layers, (Value.object layer).Readable depthLimit)
    (done : (workspace.aggregate site request).result = .ok output)
    (loaded : List.Forall₂ (fun path layer => workspace.loadTypes path = .ok layer)
      paths some) :
    ∃ others, List.Forall₂ (fun path layer =>
        (workspace.aggregate site request).workspace.loadTypes path = .ok layer)
        paths others ∧
      List.Forall₂ (fun layer other => other = layer ∨
        other = Ordered.stack (request.seeds.layers ++ layers)) some others := by
  induction loaded with
  | nil => exact ⟨[], .nil, .nil⟩
  | cons here _ induction =>
      obtain ⟨other, loadedOther, replaced⟩ :=
        loadTypes_after_aggregate merges seeds done here
      obtain ⟨others, loadedOthers, replacedOthers⟩ := induction
      exact ⟨other :: others, .cons loadedOther loadedOthers, .cons replaced replacedOthers⟩

theorem plan_after_aggregate {plan : Plan} {output : Path}
    (seeds : ∀ layer ∈ request.seeds.layers, (Value.object layer).Readable depthLimit)
    (planned : (workspace.plan site request).result = .ok plan)
    (done : (workspace.aggregate site request).result = .ok output) :
    ((workspace.aggregate site request).workspace.plan site request).result =
      .ok plan := by
  obtain ⟨root, layers, merges⟩ := plan_eq_ok_iff.mp planned
  obtain ⟨others, loaded, replaced⟩ :=
    loaded_after_aggregate merges seeds done merges.loaded
  have distinct : ∀ layer ∈ request.seeds.layers ++ layers, (Ordered.keys layer).Nodup :=
    fun layer member => nodup_keys_of_readable (merges.readable seeds layer member)
  have sameStack : Ordered.stack (request.seeds.layers ++ others) =
      Ordered.stack (request.seeds.layers ++ layers) := by
    apply Ordered.stack_eq_of_replaced distinct
    apply List.rel_append _ replaced
    exact List.forall₂_same.mpr fun _ _ => Or.inl rfl
  apply plan_eq_ok_iff.mpr
  refine ⟨root, others, merges.resolved, loaded, ?_, ?_⟩
  · rw [sameStack]
    exact merges.encoded
  · rw [sameStack]
    exact merges.counted

/-- Whatever the output overwrites, after aggregating it is up to date, and
aggregating again succeeds and leaves all files as they are. -/
theorem check_true_after_aggregate {root output : Option Path} {pallets : List String}
    {path : Path}
    (done : (workspace.aggregate site ⟨.standard, root, pallets, output⟩).result =
      .ok path) :
    (((workspace.aggregate site ⟨.standard, root, pallets, output⟩).workspace.check site
        ⟨.standard, root, pallets, output⟩).result = .ok true) ∧
      ((workspace.aggregate site ⟨.standard, root, pallets, output⟩).workspace.aggregate
        site ⟨.standard, root, pallets, output⟩).result = .ok path ∧
      ((workspace.aggregate site ⟨.standard, root, pallets, output⟩).workspace.aggregate
        site ⟨.standard, root, pallets, output⟩).workspace.tree =
        (workspace.aggregate site ⟨.standard, root, pallets, output⟩).workspace.tree := by
  obtain ⟨plan, made, planned, rfl, _⟩ := aggregate_eq_ok done
  have replanned := plan_after_aggregate Seeds.readable_standard planned done
  have current := readFile_aggregate planned done
  obtain ⟨again, unchanged⟩ := aggregate_of_current replanned current
  exact ⟨check_eq_true_iff.mpr ⟨plan, replanned, current⟩, again, by rw [unchanged]⟩

theorem check_true_after_aggregate_samplePallet :
    (samplePallet.aggregate sampleSite sampleRequest).result = .ok samplePath ∧
      ((samplePallet.aggregate sampleSite sampleRequest).workspace.check sampleSite
        sampleRequest).result = .ok true ∧
      ((samplePallet.aggregate sampleSite sampleRequest).workspace.aggregate sampleSite
        sampleRequest).result = .ok samplePath ∧
      ((samplePallet.aggregate sampleSite sampleRequest).workspace.aggregate sampleSite
        sampleRequest).workspace.tree =
        (samplePallet.aggregate sampleSite sampleRequest).workspace.tree := by
  have done : (samplePallet.aggregate sampleSite sampleRequest).result = .ok samplePath :=
    rfl
  exact ⟨done, check_true_after_aggregate done⟩

end PalletTypes.Workspace

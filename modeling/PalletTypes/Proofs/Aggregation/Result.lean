import PalletTypes.Proofs.Aggregation.Layers

/-!
The result of aggregating: the output is loaded as the layers merged in order.
-/

namespace PalletTypes.Workspace

/-- If aggregating succeeds, the output is loaded as types that have the names of all
layers and no others, each with the value of the last layer that has it, in the order
of the first layer that has it and of the places there. -/
theorem loadTypes_aggregate {workspace : Workspace} {site : Site} {root output : Option Path}
    {pallets : List String} {path : Path}
    (done : (workspace.aggregate site ⟨.standard, root, pallets, output⟩).result = .ok path) :
    ∃ base layers types,
      site.resolve root output = .ok (base, path) ∧
      List.Forall₂ (fun file layer => workspace.loadTypes file = .ok layer)
        (typesPaths base pallets) layers ∧
      (workspace.aggregate site ⟨.standard, root, pallets, output⟩).workspace.loadTypes path =
        .ok types ∧
      (∀ name, name ∈ Ordered.keys types ↔
        ∃ layer ∈ Seeds.standard.layers ++ layers, name ∈ Ordered.keys layer) ∧
      (∀ name, Ordered.lookup? name types =
        (Seeds.standard.layers ++ layers).reverse.findSome? (Ordered.lookup? name)) ∧
      (Ordered.keys types).Pairwise fun first second =>
        Prod.Lex (· < ·) (· < ·)
          (Ordered.firstPlace first (Seeds.standard.layers ++ layers))
          (Ordered.firstPlace second (Seeds.standard.layers ++ layers)) := by
  obtain ⟨plan, made, planned, rfl, _⟩ := aggregate_eq_ok done
  obtain ⟨base, layers, merges⟩ := plan_eq_ok_iff.mp planned
  have readable := merges.readable Seeds.readable_standard
  have distinct : ∀ layer ∈ Seeds.standard.layers ++ layers, (Ordered.keys layer).Nodup :=
    fun layer member => nodup_keys_of_readable (readable layer member)
  have loaded := loadTypes_eq_ok_iff.mpr ⟨plan.content, readFile_aggregate planned done,
    merges.decoded Seeds.readable_standard plan.output⟩
  refine ⟨base, layers, _, merges.resolved, merges.loaded, loaded, ?_, ?_, ?_⟩
  · intro name
    exact Ordered.mem_keys_stack
  · intro name
    exact Ordered.lookup?_stack name distinct
  · exact Ordered.keys_stack_pairwise _

def samplePath : Path := ⟨.root, ["pallets", "posts", "types.json"]⟩

/-- A tree with that file alone, which holds an empty object. -/
def samplePallet : Workspace :=
  let prepared := (Workspace.empty.ensureDirectories levelLimit samplePath.parent).1
  match prepared.writeFile samplePath [0x7B, 0x7D] with
  | .ok workspace => workspace
  | .error _ => .empty

def sampleSite : Site := ⟨[], ⟨.root, []⟩⟩

def sampleDirectory : Path := sampleSite.repository.child palletsDirectoryName

def sampleFile (pallet : String) : Path := typesPath sampleDirectory pallet

def saving (workspace : Workspace) (path : Path) (content : Bytes) : Workspace :=
  match (workspace.ensureDirectories levelLimit path.parent).1.writeFile path content with
  | .ok after => after
  | .error _ => workspace

/-- The pallet, listed twice, is merged into its own file. -/
def sampleRequest : Request :=
  ⟨.standard, some ⟨.root, []⟩, ["posts", "posts"], some samplePath⟩

theorem loadTypes_aggregate_samplePallet :
    (samplePallet.aggregate sampleSite sampleRequest).result = .ok samplePath ∧
      ∃ types, (samplePallet.aggregate sampleSite sampleRequest).workspace.loadTypes
          samplePath = .ok types ∧
        Ordered.lookup? (Text.ofString "IpfsCid") types =
          some (.string (Text.ofString "Text")) := by
  have done : (samplePallet.aggregate sampleSite sampleRequest).result = .ok samplePath :=
    rfl
  obtain ⟨base, layers, types, resolved, loaded, output, _, values, _⟩ :=
    loadTypes_aggregate done
  have atRoot : base = ⟨.root, []⟩ := (congrArg Prod.fst (Except.ok.inj resolved)).symm
  have empty : samplePallet.loadTypes samplePath = .ok [] := rfl
  have both : layers = [[], []] := by
    have files : typesPaths base ["posts", "posts"] = [samplePath, samplePath] := by
      rw [atRoot]
      decide
    rw [files] at loaded
    cases loaded with
    | cons first rest =>
        cases rest with
        | cons second rest =>
            cases rest
            rw [empty] at first second
            cases first
            cases second
            rfl
  refine ⟨done, types, output, ?_⟩
  rw [values, both]
  rfl

end PalletTypes.Workspace

import PalletTypes.Proofs.Aggregation.Steps

/-!
The first file that cannot be loaded ends the run. Its failure and what is told before
it hang on the files up to that one alone, and aggregating and checking come to the same.
-/

namespace PalletTypes.Workspace

variable {workspace other : Workspace} {seeds : Seeds} {directory : Path}

/-- Every file is loaded, as the layer beside it. -/
abbrev Loads (workspace : Workspace) : List Path → List Json.Members → Prop :=
  List.Forall₂ fun path layer => workspace.loadTypes path = .ok layer

theorem loadTypes_congr {path : Path}
    (same : other.readFile path = workspace.readFile path) :
    other.loadTypes path = workspace.loadTypes path := by
  unfold loadTypes
  rw [same]

theorem Loads.congr {paths : List Path} {layers : List Json.Members}
    (loaded : workspace.Loads paths layers)
    (same : ∀ path ∈ paths, other.readFile path = workspace.readFile path) :
    other.Loads paths layers := by
  induction loaded with
  | nil => exact .nil
  | cons here _ induction =>
      rw [List.forall_mem_cons] at same
      exact .cons ((loadTypes_congr same.1).trans here) (induction same.2)

theorem exists_first_failing {pallets : List String}
    (fails : ∃ pallet ∈ pallets, ∃ failure,
      workspace.loadTypes (typesPath directory pallet) = .error failure) :
    ∃ before pallet later layers failure, pallets = before ++ pallet :: later ∧
      workspace.Loads (before.map (typesPath directory)) layers ∧
      workspace.loadTypes (typesPath directory pallet) = .error failure := by
  induction pallets with
  | nil =>
      obtain ⟨pallet, member, _⟩ := fails
      cases member
  | cons first rest induction =>
      cases loaded : workspace.loadTypes (typesPath directory first) with
      | error failure => exact ⟨[], first, rest, [], failure, rfl, .nil, loaded⟩
      | ok layer =>
          have failsLater : ∃ pallet ∈ rest, ∃ failure,
              workspace.loadTypes (typesPath directory pallet) = .error failure := by
            obtain ⟨pallet, member, failure, failed⟩ := fails
            rcases List.mem_cons.mp member with rfl | member
            · rw [loaded] at failed
              cases failed
            · exact ⟨pallet, member, failure, failed⟩
          obtain ⟨before, pallet, later, layers, failure, split, loadedBefore, failed⟩ :=
            induction failsLater
          exact ⟨first :: before, pallet, later, layer :: layers, failure,
            congrArg (first :: ·) split, .cons loaded loadedBefore, failed⟩

theorem exists_loads {paths : List Path}
    (all : ∀ path ∈ paths, ∃ layer, workspace.loadTypes path = .ok layer) :
    ∃ layers, workspace.Loads paths layers :=
  exists_forall₂ all

/-! Merging goes on from what the loaded files add, or ends with the failure. -/

theorem mergeFiles_append (merge : Merge) {paths : List Path}
    {layers : List Json.Members} (loaded : workspace.Loads paths layers)
    (later : List Path) :
    workspace.mergeFiles merge (paths ++ later) =
      workspace.mergeFiles (layers.foldl Merge.add merge) later := by
  induction loaded generalizing merge with
  | nil => rfl
  | cons here _ induction =>
      rw [List.cons_append, mergeFiles, here]
      exact induction (merge.add _)

theorem foldl_add_ofLayers (first second : List Json.Members) :
    second.foldl Merge.add (.ofLayers first) = .ofLayers (first ++ second) := by
  simp only [Merge.ofLayers, List.foldl_append]

theorem collectTypes_of_loads {pallets : List String} {layers : List Json.Members}
    (loaded : workspace.Loads (pallets.map (typesPath directory)) layers) :
    workspace.collectTypes seeds directory pallets =
      ⟨.ok (Merge.ofLayers (seeds.layers ++ layers)).types,
        (Merge.ofLayers (seeds.layers ++ layers)).overridden.map .overridden,
        workspace⟩ := by
  have merged := mergeFiles_append (.ofLayers seeds.layers) loaded []
  rw [List.append_nil, foldl_add_ofLayers] at merged
  rw [collectTypes, merged, mergeFiles]

theorem collectTypes_of_failing {before later : List String} {pallet : String}
    {layers : List Json.Members} {failure : Failure}
    (loaded : workspace.Loads (before.map (typesPath directory)) layers)
    (failed : workspace.loadTypes (typesPath directory pallet) = .error failure) :
    workspace.collectTypes seeds directory (before ++ pallet :: later) =
      ⟨.error failure,
        (Merge.ofLayers (seeds.layers ++ layers)).overridden.map .overridden,
        workspace⟩ := by
  have merged := mergeFiles_append (.ofLayers seeds.layers) loaded
    ((pallet :: later).map (typesPath directory))
  rw [foldl_add_ofLayers, List.map_cons, mergeFiles, failed] at merged
  rw [collectTypes, List.map_append, List.map_cons, merged]

/-! Aggregating and checking collect first, so a failure there is theirs. -/

/-- Collecting comes to the failure after the names are told, and so do aggregating and
checking whenever it is this directory that they collect from. -/
structure Fails (workspace : Workspace) (seeds : Seeds) (directory : Path)
    (pallets : List String) (failure : Failure) (overridden : List Text) : Prop where
  collect : workspace.collectTypes seeds directory pallets =
    ⟨.error failure, overridden.map .overridden, workspace⟩
  aggregate : ∀ (site : Site) (root output : Option Path) (base place : Path),
    site.resolve root output = .ok (base, place) →
      base.child palletsDirectoryName = directory →
        workspace.aggregate site ⟨seeds, root, pallets, output⟩ =
          ⟨.error failure, overridden.map .overridden, workspace⟩
  check : ∀ (site : Site) (root output : Option Path) (base place : Path),
    site.resolve root output = .ok (base, place) →
      base.child palletsDirectoryName = directory →
        workspace.check site ⟨seeds, root, pallets, output⟩ =
          ⟨.error failure, overridden.map .overridden, workspace⟩

theorem plan_of_collectTypes {pallets : List String} {failure : Failure}
    {log : List Event} {site : Site} {root output : Option Path} {base place : Path}
    (collected : workspace.collectTypes seeds directory pallets =
      ⟨.error failure, log, workspace⟩)
    (resolved : site.resolve root output = .ok (base, place))
    (here : base.child palletsDirectoryName = directory) :
    workspace.plan site ⟨seeds, root, pallets, output⟩ =
      ⟨.error failure, log, workspace⟩ := by
  simp only [plan, resolved, here, collected]

theorem Fails.of_collectTypes {pallets : List String} {failure : Failure}
    {overridden : List Text}
    (collected : workspace.collectTypes seeds directory pallets =
      ⟨.error failure, overridden.map .overridden, workspace⟩) :
    workspace.Fails seeds directory pallets failure overridden where
  collect := collected
  aggregate := by
    intro site root output base place resolved here
    simp only [Workspace.aggregate, plan_of_collectTypes collected resolved here]
  check := by
    intro site root output base place resolved here
    simp only [Workspace.check, plan_of_collectTypes collected resolved here,
      List.append_nil]

/-- If a file cannot be loaded, the first such one in the order of the list ends the run
with its failure, after exactly the names that the seeds and the files before it override
are told; and so it is in every tree that has the same files up to that one. If all can
be loaded, the types are those of the seeds and all files merged in order. -/
theorem collectTypes_ends_at_first_failure (workspace : Workspace) (seeds : Seeds)
    (directory : Path) (pallets : List String) :
    ((∃ pallet ∈ pallets, ∃ failure,
        workspace.loadTypes (typesPath directory pallet) = .error failure) →
      ∃ before pallet later layers failure, pallets = before ++ pallet :: later ∧
        workspace.Loads (before.map (typesPath directory)) layers ∧
        workspace.loadTypes (typesPath directory pallet) = .error failure ∧
        ∀ other : Workspace,
          (∀ earlier ∈ before ++ [pallet],
            other.readFile (typesPath directory earlier) =
              workspace.readFile (typesPath directory earlier)) →
          other.Fails seeds directory pallets failure
            (Merge.ofLayers (seeds.layers ++ layers)).overridden) ∧
      ((∀ pallet ∈ pallets, ∃ layer,
          workspace.loadTypes (typesPath directory pallet) = .ok layer) →
        ∃ layers, workspace.Loads (pallets.map (typesPath directory)) layers ∧
          workspace.collectTypes seeds directory pallets =
            ⟨.ok (Merge.ofLayers (seeds.layers ++ layers)).types,
              (Merge.ofLayers (seeds.layers ++ layers)).overridden.map .overridden,
              workspace⟩) := by
  constructor
  · intro fails
    obtain ⟨before, pallet, later, layers, failure, split, loaded, failed⟩ :=
      exists_first_failing fails
    refine ⟨before, pallet, later, layers, failure, split, loaded, failed, ?_⟩
    intro other same
    rw [List.forall_mem_append, List.forall_mem_singleton] at same
    have loadedOther : other.Loads (before.map (typesPath directory)) layers :=
      loaded.congr (List.forall_mem_map.mpr same.1)
    have failedOther : other.loadTypes (typesPath directory pallet) = .error failure :=
      (loadTypes_congr same.2).trans failed
    apply Fails.of_collectTypes
    rw [split]
    exact collectTypes_of_failing loadedOther failedOther
  · intro all
    obtain ⟨layers, loaded⟩ := exists_loads (List.forall_mem_map.mpr all)
    exact ⟨layers, loaded, collectTypes_of_loads loaded⟩

end PalletTypes.Workspace

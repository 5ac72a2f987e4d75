import PalletTypes.Proofs.Aggregation.Steps

/-!
Checking and aggregating agree: the output is up to date exactly when
aggregating would leave every file as it is.
-/

namespace PalletTypes.Workspace

/-- The check succeeds exactly when aggregating would succeed without changing the
tree, and it changes nothing itself whatever it finds. -/
theorem check_true_iff_aggregate_unchanged (workspace : Workspace) (site : Site)
    (request : Request) :
    ((workspace.check site request).result = .ok true ↔
      (∃ output, (workspace.aggregate site request).result = .ok output) ∧
        (workspace.aggregate site request).workspace.tree = workspace.tree) ∧
      (workspace.check site request).workspace.tree = workspace.tree := by
  refine ⟨?_, by rw [check_workspace]⟩
  rw [check_eq_true_iff]
  constructor
  · rintro ⟨plan, planned, current⟩
    obtain ⟨done, unchanged⟩ := aggregate_of_current planned current
    exact ⟨⟨plan.output, done⟩, by rw [unchanged]⟩
  · rintro ⟨⟨output, done⟩, sameTree⟩
    obtain ⟨plan, made, planned, _, prepared, written⟩ := aggregate_eq_ok done
    -- Neither step moves the directory that relative paths start from.
    have sameDirectory :
        (workspace.aggregate site request).workspace.directory =
          workspace.directory := by
      obtain ⟨location, _, places⟩ := writeFile_places written
      have grows := ensureDirectories_grows workspace levelLimit plan.output.parent
      rw [prepared] at grows
      exact places.directory.trans grows.directory
    have unchanged : (workspace.aggregate site request).workspace = workspace := by
      cases after : (workspace.aggregate site request).workspace with
      | mk tree directory standing =>
          rw [after] at sameTree sameDirectory
          cases workspace
          cases sameTree
          cases sameDirectory
          rfl
    have current := readFile_aggregate planned done
    rw [unchanged] at current
    exact ⟨plan, planned, current⟩

end PalletTypes.Workspace

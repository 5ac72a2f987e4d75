import PalletTypes.Proofs.Aggregation.Steps
import PalletTypes.Proofs.FileTree.Ancestors

/-!
What aggregating leaves in the tree, whatever it comes to. Until the whole content is known
nothing is made; then only directories on the way to the output are, and the output last.
-/

namespace PalletTypes.Workspace

variable {workspace before after : Workspace} {site : Site} {request : Request}

/-- All is known that is to be written: where, of which types, and with which content. -/
structure Prepared (workspace : Workspace) (site : Site) (request : Request)
    (root output : Path) (types : Json.Members) (content : Bytes) : Prop where
  resolved : site.resolve request.root request.output = .ok (root, output)
  collected : (workspace.collectTypes request.seeds (root.child palletsDirectoryName)
    request.pallets).result = .ok types
  encoded : encodeTypes (.object types) = .ok content

theorem plan_eq_ok_iff_prepared {plan : Plan} :
    (workspace.plan site request).result = .ok plan ↔
      ∃ root types, workspace.Prepared site request root plan.output types plan.content ∧
        plan.count = types.length := by
  rw [plan_eq_ok_iff]
  constructor
  · rintro ⟨root, layers, merges⟩
    exact ⟨root, _, ⟨merges.resolved, merges.collected, merges.encoded⟩, merges.counted⟩
  · rintro ⟨root, types, prepared, counted⟩
    obtain ⟨layers, loaded, rfl⟩ := collectTypes_eq_ok_iff.mp prepared.collected
    exact ⟨root, layers, prepared.resolved, loaded, prepared.encoded, counted⟩

theorem Prepared.planned {root output : Path} {types : Json.Members} {content : Bytes}
    (prepared : workspace.Prepared site request root output types content) :
    (workspace.plan site request).result = .ok ⟨output, types.length, content⟩ :=
  plan_eq_ok_iff_prepared.mpr ⟨root, types, prepared, rfl⟩

theorem aggregate_of_plan_error {failure : Failure}
    (planned : (workspace.plan site request).result = .error failure) :
    (workspace.aggregate site request).result = .error failure ∧
      (workspace.aggregate site request).workspace = workspace := by
  simp only [aggregate, planned, and_self]

theorem aggregate_of_unprepared
    (unprepared : ∀ root output types content,
      ¬ workspace.Prepared site request root output types content) :
    (∃ failure, (workspace.aggregate site request).result = .error failure) ∧
      (workspace.aggregate site request).workspace = workspace := by
  cases planned : (workspace.plan site request).result with
  | ok plan =>
      obtain ⟨root, types, prepared, _⟩ := plan_eq_ok_iff_prepared.mp planned
      exact absurd prepared (unprepared _ _ _ _)
  | error failure =>
      obtain ⟨failed, unchanged⟩ := aggregate_of_plan_error planned
      exact ⟨⟨failure, failed⟩, unchanged⟩

/-- The output holds the content. Every other location holds what it held, or a directory
that was missing on the way to the output; no directory is missing there any more. -/
structure Writes (before after : Workspace) (output : Path) (content : Bytes) : Prop where
  directory : after.directory = before.directory
  written : ∃ place, after.locate output = .ok place ∧
    before.tree.entry? place ≠ some .directory ∧
    after.tree.entry? place = some (.file content) ∧
    ∀ location ≠ place, after.tree.entry? location = before.tree.entry? location ∨
      NewDirectory output.Ancestor before after location
  ancestors : ∀ ancestor, output.Ancestor ancestor →
    ∃ location, after.locate ancestor = .ok location ∧
      after.tree.entry? location = some .directory

theorem Makes.writes {made : Workspace} {output : Path} {content : Bytes}
    (makes : Makes output.Ancestor before made)
    (written : made.writeFile output content = .ok after) :
    before.Writes after output content := by
  obtain ⟨place, located, places⟩ := writeFile_places written
  have relocated := places.reaches.locate located
  refine ⟨places.directory.trans makes.directory, ⟨place, relocated, ?_, places.here, ?_⟩,
    fun ancestor => locate_ancestor relocated⟩
  · intro standing
    exact places.free (makes.grows.kept standing)
  · intro location different
    rcases makes.entries location with same | new
    · exact Or.inl ((places.elsewhere different).trans same)
    · obtain ⟨path, isAncestor, reached⟩ := new.reached
      exact Or.inr ⟨new.vacant, (places.elsewhere different).trans new.standing, path,
        isAncestor, places.reaches.locate reached⟩

/-- Every location holds what it held, or a directory that was missing on the way to the
output, in which nothing but such directories stands. -/
structure OnlyMakesAncestors (before after : Workspace) (output : Path) : Prop where
  directory : after.directory = before.directory
  entries : ∀ location, after.tree.entry? location = before.tree.entry? location ∨
    NewDirectory output.Ancestor before after location
  inside : ∀ name location entry, before.tree.entry? location = none →
    after.tree.entry? (name :: location) = some entry →
      NewDirectory output.Ancestor before after (name :: location)

theorem Makes.onlyMakesAncestors {output : Path}
    (makes : Makes output.Ancestor before after) :
    before.OnlyMakesAncestors after output where
  directory := makes.directory
  entries := makes.entries
  inside := fun _ _ _ vacant standing => (makes.inside vacant standing).2

theorem aggregate_steps {plan : Plan}
    (planned : (workspace.plan site request).result = .ok plan) :
    ∃ made, Makes plan.output.Ancestor workspace made ∧
      ((∃ failure, (workspace.aggregate site request).result = .error failure ∧
          (workspace.aggregate site request).workspace = made) ∨
        (workspace.aggregate site request).result = .ok plan.output ∧
          made.writeFile plan.output plan.content =
            .ok (workspace.aggregate site request).workspace) := by
  have makes := ensureDirectories_parent_makes workspace levelLimit_pos plan.output
  cases ensured : workspace.ensureDirectories levelLimit plan.output.parent with
  | mk made result =>
      rw [ensured] at makes
      refine ⟨made, makes, ?_⟩
      cases result with
      | error fault =>
          refine Or.inl ⟨.ofAccess fault, ?_⟩
          simp only [aggregate, planned, ensured, and_self]
      | ok =>
          cases written : made.writeFile plan.output plan.content with
          | error fault =>
              refine Or.inl ⟨.ofAccess fault, ?_⟩
              simp only [aggregate, planned, ensured, written, and_self]
          | ok after =>
              apply Or.inr
              simp only [aggregate, planned, ensured, written, and_self]

theorem aggregate_of_prepared {root output : Path} {types : Json.Members}
    {content : Bytes}
    (prepared : workspace.Prepared site request root output types content) :
    (∀ path, (workspace.aggregate site request).result = .ok path →
        path = output ∧
          workspace.Writes (workspace.aggregate site request).workspace output content) ∧
      ∀ failure, (workspace.aggregate site request).result = .error failure →
        workspace.OnlyMakesAncestors (workspace.aggregate site request).workspace
          output := by
  obtain ⟨made, makes, ⟨failure, failed, left⟩ | ⟨done, written⟩⟩ :=
    aggregate_steps prepared.planned
  · constructor
    · intro path succeeded
      rw [failed] at succeeded
      cases succeeded
    · intro _ _
      rw [left]
      exact makes.onlyMakesAncestors
  · constructor
    · intro path succeeded
      rw [done] at succeeded
      exact ⟨(Except.ok.inj succeeded).symm, makes.writes written⟩
    · intro failure failed
      rw [done] at failed
      cases failed

/-- What aggregating does to the tree in every case. If the places cannot be found, a file
cannot be loaded or the types cannot be written down, it fails and the tree is as it was.
Otherwise either it succeeds, and the output holds the types of the tree before and all
else is as it was but for the directories that were missing on the way; or it fails later,
and nothing but some of these directories is new. -/
theorem aggregate_effect (workspace : Workspace) (site : Site) (request : Request) :
    ((∀ root output types content,
        ¬ workspace.Prepared site request root output types content) →
      (∃ failure, (workspace.aggregate site request).result = .error failure) ∧
        (workspace.aggregate site request).workspace = workspace) ∧
      ∀ root output types content,
        workspace.Prepared site request root output types content →
          (∀ path, (workspace.aggregate site request).result = .ok path →
            path = output ∧
              workspace.Writes (workspace.aggregate site request).workspace output
                content) ∧
          ∀ failure, (workspace.aggregate site request).result = .error failure →
            workspace.OnlyMakesAncestors (workspace.aggregate site request).workspace
              output :=
  ⟨aggregate_of_unprepared, fun _ _ _ _ => aggregate_of_prepared⟩

end PalletTypes.Workspace

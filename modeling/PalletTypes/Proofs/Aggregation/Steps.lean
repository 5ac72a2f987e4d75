import Mathlib.Data.List.Forall2
import PalletTypes.Aggregation
import PalletTypes.Proofs.Except
import PalletTypes.Proofs.FileTree.Ancestors
import PalletTypes.Proofs.Merge

/-!
What the steps of aggregation come to: which layers a plan merges, and what the
success of aggregating and of checking says of the output file.
-/

namespace PalletTypes

theorem exists_forall₂ {α β : Type} {Related : α → β → Prop} {items : List α}
    (each : ∀ item ∈ items, ∃ value, Related item value) :
    ∃ values, List.Forall₂ Related items values := by
  induction items with
  | nil => exact ⟨[], .nil⟩
  | cons item items induction =>
      rw [List.forall_mem_cons] at each
      obtain ⟨value, related⟩ := each.1
      obtain ⟨values, others⟩ := induction each.2
      exact ⟨value :: values, .cons related others⟩

namespace Workspace

variable {workspace : Workspace} {site : Site} {request : Request}

theorem loadTypes_eq_ok_iff {path : Path} {layer : Json.Members} :
    workspace.loadTypes path = .ok layer ↔
      ∃ content, workspace.readFile path = .ok content ∧
        decodeTypes path content = .ok layer := by
  unfold loadTypes
  cases workspace.readFile path with
  | error fault => simp
  | ok content => simp

theorem mergeFiles_eq_ok_iff {merge : Merge} {paths : List Path}
    {types : Json.Members} :
    (workspace.mergeFiles merge paths).1 = .ok types ↔
      ∃ layers, List.Forall₂ (fun path layer => workspace.loadTypes path = .ok layer)
          paths layers ∧
        types = (layers.foldl Merge.add merge).types := by
  induction paths generalizing merge with
  | nil =>
      simp only [mergeFiles, Except.ok.injEq, List.forall₂_nil_left_iff,
        exists_eq_left, List.foldl_nil]
      exact eq_comm
  | cons path paths induction =>
      cases loaded : workspace.loadTypes path with
      | error failure =>
          simp only [mergeFiles, loaded, reduceCtorEq, List.forall₂_cons_left_iff,
            false_iff, not_exists, not_and]
          rintro layers ⟨layer, rest, held, _⟩
          cases held
      | ok layer =>
          simp only [mergeFiles, loaded, induction]
          constructor
          · rintro ⟨layers, loadedRest, merged⟩
            exact ⟨layer :: layers, .cons loaded loadedRest, merged⟩
          · rintro ⟨layers, all, merged⟩
            cases all with
            | cons here rest =>
                rw [loaded] at here
                cases here
                exact ⟨_, rest, merged⟩

theorem collectTypes_eq_ok_iff {seeds : Seeds} {directory : Path} {pallets : List String}
    {types : Json.Members} :
    (workspace.collectTypes seeds directory pallets).result = .ok types ↔
      ∃ layers, List.Forall₂ (fun path layer => workspace.loadTypes path = .ok layer)
          (pallets.map (typesPath directory)) layers ∧
        types = Ordered.stack (seeds.layers ++ layers) := by
  have sameTypes (layers : List Json.Members) :
      (layers.foldl Merge.add (.ofLayers seeds.layers)).types =
        Ordered.stack (seeds.layers ++ layers) := by
    rw [Merge.types_foldl_add, Merge.types_ofLayers, Ordered.stack, Ordered.stack,
      List.foldl_append]
  simp only [collectTypes, mergeFiles_eq_ok_iff, sameTypes]

def typesPaths (root : Path) (pallets : List String) : List Path :=
  pallets.map (typesPath (root.child palletsDirectoryName))

/-- A plan comes of layers: the places are known, every file is loaded as one of
them, and what they merge into can be written. -/
structure Merges (workspace : Workspace) (site : Site) (request : Request) (plan : Plan)
    (root : Path) (layers : List Json.Members) : Prop where
  resolved : site.resolve request.root request.output = .ok (root, plan.output)
  loaded : List.Forall₂ (fun path layer => workspace.loadTypes path = .ok layer)
    (typesPaths root request.pallets) layers
  encoded : encodeTypes (.object (Ordered.stack (request.seeds.layers ++ layers))) =
    .ok plan.content
  counted : plan.count = (Ordered.stack (request.seeds.layers ++ layers)).length

theorem Merges.collected {plan : Plan} {root : Path} {layers : List Json.Members}
    (merges : workspace.Merges site request plan root layers) :
    (workspace.collectTypes request.seeds (root.child palletsDirectoryName)
      request.pallets).result =
      .ok (Ordered.stack (request.seeds.layers ++ layers)) :=
  collectTypes_eq_ok_iff.mpr ⟨layers, merges.loaded, rfl⟩

theorem plan_eq_ok_iff {plan : Plan} :
    (workspace.plan site request).result = .ok plan ↔
      ∃ root layers, workspace.Merges site request plan root layers := by
  unfold Workspace.plan
  cases resolved : site.resolve request.root request.output with
  | error failure =>
      simp only [reduceCtorEq, false_iff, not_exists]
      intro root layers merges
      rw [merges.resolved] at resolved
      cases resolved
  | ok places =>
      obtain ⟨root, output⟩ := places
      cases collected : (workspace.collectTypes request.seeds
          (root.child palletsDirectoryName) request.pallets).result with
      | error failure =>
          simp only [collected, reduceCtorEq, false_iff, not_exists]
          intro found layers merges
          have samePlaces := merges.resolved
          rw [resolved] at samePlaces
          cases samePlaces
          rw [merges.collected] at collected
          cases collected
      | ok types =>
          obtain ⟨layers, loaded, rfl⟩ := collectTypes_eq_ok_iff.mp collected
          simp only [collected]
          constructor
          · intro planned
            obtain ⟨content, written, rfl⟩ := map_eq_ok_iff.mp planned
            exact ⟨root, layers, resolved, loaded, written, rfl⟩
          · rintro ⟨found, others, merges⟩
            have samePlaces := merges.resolved
            rw [resolved] at samePlaces
            cases samePlaces
            rw [merges.collected] at collected
            rw [← Except.ok.inj collected]
            simp only [merges.encoded, Except.map, ← merges.counted]

theorem aggregate_eq_ok {output : Path}
    (done : (workspace.aggregate site request).result = .ok output) :
    ∃ plan made, (workspace.plan site request).result = .ok plan ∧
      output = plan.output ∧
      workspace.ensureDirectories levelLimit plan.output.parent = (made, .ok ()) ∧
      made.writeFile plan.output plan.content =
        .ok (workspace.aggregate site request).workspace := by
  unfold aggregate at done ⊢
  cases planned : (workspace.plan site request).result with
  | error failure => simp [planned] at done
  | ok plan =>
      refine ⟨plan, ?_⟩
      simp only [planned] at done ⊢
      cases prepared : workspace.ensureDirectories levelLimit plan.output.parent with
      | mk made result =>
          cases result with
          | error fault => simp [prepared] at done
          | ok =>
              simp only [prepared] at done
              cases written : made.writeFile plan.output plan.content with
              | error fault => simp [written] at done
              | ok after =>
                  simp only [written, Except.ok.injEq] at done
                  exact ⟨made, trivial, done.symm, rfl, by simp only [written]⟩

theorem readFile_aggregate {plan : Plan} {output : Path}
    (planned : (workspace.plan site request).result = .ok plan)
    (done : (workspace.aggregate site request).result = .ok output) :
    (workspace.aggregate site request).workspace.readFile plan.output =
      .ok plan.content := by
  obtain ⟨samePlan, made, replanned, _, _, written⟩ := aggregate_eq_ok done
  rw [planned] at replanned
  cases replanned
  exact readFile_writeFile written

/-- After aggregating, any file holds what it held before or what was planned. -/
theorem readFile_after_aggregate {plan : Plan} {output path : Path} {content : Bytes}
    (planned : (workspace.plan site request).result = .ok plan)
    (done : (workspace.aggregate site request).result = .ok output)
    (held : workspace.readFile path = .ok content) :
    (workspace.aggregate site request).workspace.readFile path = .ok content ∨
      (workspace.aggregate site request).workspace.readFile path = .ok plan.content := by
  obtain ⟨samePlan, made, replanned, _, prepared, written⟩ := aggregate_eq_ok done
  rw [planned] at replanned
  cases replanned
  have grows := ensureDirectories_grows workspace levelLimit plan.output.parent
  rw [prepared] at grows
  obtain ⟨location, located, standing⟩ := readFile_eq_ok_iff.mp held
  obtain ⟨place, _, places⟩ := writeFile_places written
  have relocated := places.reaches.locate (grows.reaches.locate located)
  by_cases same : location = place
  · right
    exact readFile_eq_ok_iff.mpr ⟨location, relocated, same ▸ places.here⟩
  · left
    have kept := (places.elsewhere same).trans (grows.kept standing)
    exact readFile_eq_ok_iff.mpr ⟨location, relocated, kept⟩

theorem aggregate_of_current {plan : Plan}
    (planned : (workspace.plan site request).result = .ok plan)
    (current : workspace.readFile plan.output = .ok plan.content) :
    (workspace.aggregate site request).result = .ok plan.output ∧
      (workspace.aggregate site request).workspace = workspace := by
  obtain ⟨location, located, _⟩ := readFile_eq_ok_iff.mp current
  obtain ⟨directory, reached, standing⟩ := locate_parent located
  have prepared : workspace.ensureDirectories levelLimit plan.output.parent =
      (workspace, .ok ()) :=
    ensureDirectories_eq_self (by decide) reached standing
  simp [aggregate, planned, prepared, writeFile_eq_self current]

theorem check_eq_true_iff :
    (workspace.check site request).result = .ok true ↔
      ∃ plan, (workspace.plan site request).result = .ok plan ∧
        workspace.readFile plan.output = .ok plan.content := by
  simp only [check]
  cases planned : (workspace.plan site request).result with
  | error failure => simp
  | ok plan =>
      simp only [Except.ok.injEq, exists_eq_left']
      cases read : workspace.readFile plan.output with
      | error fault =>
          cases workspace.pathExists plan.output with
          | error fault => simp
          | ok exist => cases exist <;> simp
      | ok content =>
          obtain ⟨location, located, standing⟩ := readFile_eq_ok_iff.mp read
          have present : workspace.pathExists plan.output = .ok true := by
            simp [pathExists, entry?, located, standing, Except.map]
          simp only [present, Except.ok.injEq]
          split <;> simp_all

theorem check_workspace : (workspace.check site request).workspace = workspace := by
  simp only [check]
  cases (workspace.plan site request).result with
  | error failure => rfl
  | ok plan =>
      simp only
      cases workspace.pathExists plan.output with
      | error fault => rfl
      | ok exist =>
          cases exist with
          | false => rfl
          | true =>
              simp only
              cases workspace.readFile plan.output with
              | error fault => rfl
              | ok content =>
                  simp only
                  split <;> rfl

end Workspace

end PalletTypes

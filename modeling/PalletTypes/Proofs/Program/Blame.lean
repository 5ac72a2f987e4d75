import PalletTypes.Proofs.Aggregation.Emptied
import PalletTypes.Proofs.Aggregation.Messages
import PalletTypes.Proofs.Options.Spelling
import PalletTypes.Proofs.Program.Exit

/-!
What a run tells that fails because of one pallet's file. A file that is refused is named.
Two other ways to fail do not name it: a file that is not read to its end, and types that are
read but cannot be written.
-/

namespace PalletTypes

open Json

namespace Run

theorem shown_append (verbose : Bool) (first second : List Event) :
    shown verbose (first ++ second) = shown verbose first ++ shown verbose second := by
  simp [shown, String.join_append]

theorem shown_overridden (names : List Text) : shown false (names.map .overridden) = "" := by
  have quiet : (names.map Event.overridden).filter
      (fun event => decide (Level.warning.rank ≤ event.level.rank)) = [] := by
    refine List.filter_eq_nil_iff.mpr fun event member => ?_
    obtain ⟨name, _, rfl⟩ := List.mem_map.mp member
    exact Bool.false_ne_true
  unfold shown
  simp only [Bool.false_eq_true, if_false, quiet]
  rfl

theorem ofOutcome_of_error {workspace : Workspace} {failure : Failure} {names : List Text} :
    ofOutcome false ⟨.error failure, names.map .overridden, workspace⟩ =
      if failure.isReported then
        ⟨.ok 1, "", (Event.failed failure).line ++ "\n", workspace⟩
      else ⟨.error failure, "", "", workspace⟩ := by
  have line : shown false [.failed failure] = (Event.failed failure).line ++ "\n" := by
    simp [shown, Event.level, Level.rank]
  simp only [ofOutcome, shown_append, shown_overridden, line, String.empty_append]

end Run

theorem ofTexts_root {root : String} (plain : root.toList.head? ≠ some '-') :
    Command.ofTexts (["--root", root].map String.toList) =
      .run { Options.standard with root := some (some (Path.ofString root)) } := by
  have spelled : Spelled [.slot .root root.toList] ["--root".toList, root.toList] :=
    .append (.next (Switch.isName_longName (.slot .root)) plain) .nil
  have value : Slot.path? root.toList = some (Path.ofString root) := by
    refine if_neg fun dashes => plain ?_
    rw [dashes]
    rfl
  have asked : Options.asked [.slot .root root.toList] =
      { Options.standard with root := some (Slot.path? root.toList) } := rfl
  rw [value] at asked
  exact (Command.ofTexts_of_spelled spelled).trans (congrArg Command.run asked)

theorem Failure.IsUnread.unreported {failure : Failure} (unread : failure.IsUnread) :
    failure.isReported = false := by
  rcases unread with rfl | ⟨digits, rfl⟩ <;> rfl

namespace Workspace

def rootRequest (root : String) : Request :=
  ⟨.standard, some (Path.ofString root), standardPallets, none⟩

section Runs

variable {workspace : Workspace} {site : Site} {root : String}
  (plain : root.toList.head? ≠ some '-')
include plain

theorem run_root : workspace.run site .standard ["--root", root] =
    .ofOutcome false ((workspace.aggregate site (rootRequest root)).mapResult fun _ => 0) := by
  rw [run_of_accepted (ofTexts_root plain)]
  rfl

theorem run_root_of_failed {failure : Failure} {names : List Text}
    (failed : workspace.aggregate site (rootRequest root) =
      ⟨.error failure, names.map .overridden, workspace⟩) :
    workspace.run site .standard ["--root", root] =
      if failure.isReported then
        ⟨.ok 1, "", (Event.failed failure).line ++ "\n", workspace⟩
      else ⟨.error failure, "", "", workspace⟩ := by
  rw [run_root plain, failed]
  exact Run.ofOutcome_of_error

theorem run_root_exit_ok_zero_iff :
    (workspace.run site .standard ["--root", root]).exit = .ok 0 ↔
      ∃ output, (workspace.aggregate site (rootRequest root)).result = .ok output := by
  rw [run_root plain]
  cases done : (workspace.aggregate site (rootRequest root)).result with
  | ok output => simp [Run.ofOutcome, Outcome.mapResult, done, Except.map]
  | error failure =>
      have ended : (Run.ofOutcome false
          ((workspace.aggregate site (rootRequest root)).mapResult fun _ => 0)).exit ≠
            .ok 0 := by
        intro isZero
        rcases Run.result_of_exit_eq_ok isZero with performed | impossible
        · rw [Outcome.mapResult, done] at performed
          cases performed
        · cases impossible
      simp [ended]

end Runs

theorem aggregate_of_unwritten {workspace : Workspace} {site : Site} {request : Request}
    {root output : Path} {layers : List Members} {failure : Failure}
    (resolved : site.resolve request.root request.output = .ok (root, output))
    (loaded : workspace.Loads (typesPaths root request.pallets) layers)
    (failed : encodeTypes (.object (Ordered.stack (request.seeds.layers ++ layers))) =
      .error failure) :
    workspace.aggregate site request =
      ⟨.error failure, (Merge.ofLayers (request.seeds.layers ++ layers)).overridden.map
        .overridden, workspace⟩ := by
  have collected : workspace.collectTypes request.seeds (root.child palletsDirectoryName)
      request.pallets = _ := collectTypes_of_loads loaded
  rw [Merge.types_ofLayers] at collected
  simp only [aggregate, plan, resolved, collected, failed, Except.map]

theorem writeFile_of_located {workspace : Workspace} {path : Path} {name : String}
    {parent : Location} (located : workspace.locate path = .ok (name :: parent))
    (free : workspace.tree.entry? (name :: parent) ≠ some .directory)
    (inDirectory : workspace.tree.entry? parent = some .directory) (content : Bytes) :
    ∃ after, workspace.writeFile path content = .ok after := by
  simp only [writeFile, located, free, dite_false, put, inDirectory, dite_true,
    Except.ok.injEq, exists_eq']

/-- If one tree can take the output, so can one that differs in a pallet's file alone. -/
theorem EmptiedAt.aggregate {first second : Workspace} {place : Location} {site : Site}
    {request : Request} {root : Path} {pallet : String} {output : Path} {plan : Plan}
    (emptied : EmptiedAt place first second)
    (inDirectory : first.tree.entry? place.tail = some .directory)
    (listed : pallet ∈ standardPallets)
    (located : second.locate (typesPath (root.child palletsDirectoryName) pallet) = .ok place)
    (resolved : site.resolve request.root request.output =
      .ok (root, root.child typesFileName))
    (planned : (first.plan site request).result = .ok plan)
    (done : (second.aggregate site request).result = .ok output) :
    (first.aggregate site request).result = .ok plan.output := by
  obtain ⟨outer, inRoot, atPlace⟩ := locate_typesPath listed located
  obtain ⟨base, reached, standing, rfl⟩ :=
    locate_child plainName_palletsDirectoryName inRoot
  obtain ⟨planOther, made, plannedOther, _, prepared, written⟩ := aggregate_eq_ok done
  rw [output_of_plan resolved plannedOther] at prepared written
  rw [parent_child plainName_typesFileName,
    ensureDirectories_eq_self levelLimit_pos reached standing] at prepared
  obtain rfl := congrArg Prod.fst prepared
  obtain ⟨location, leads, places⟩ := writeFile_places written
  obtain ⟨directory, reachedAgain, _, rfl⟩ := locate_child plainName_typesFileName leads
  cases reached.symm.trans reachedAgain
  have reaches := emptied.reaches inDirectory
  have free : first.tree.entry? (typesFileName :: base) ≠ some .directory := by
    rw [← emptied.entries]
    · exact places.free
    · intro below
      have longer := below.length_le
      simp only [atPlace, List.length_cons] at longer
      omega
    · intro above
      have inRoot : palletsDirectoryName :: base <:+ place :=
        atPlace ▸ List.suffix_append [typesFileName, pallet] _
      have same := (List.suffix_of_suffix_length_le above inRoot (by simp)).eq_of_length (by simp)
      exact absurd (List.cons.inj same).1 (by decide)
  obtain ⟨after, writes⟩ := writeFile_of_located (reaches.locate leads) free
    (reaches.kept base standing) plan.content
  have sameOutput := output_of_plan resolved planned
  have ensured : first.ensureDirectories levelLimit plan.output.parent = (first, .ok ()) := by
    rw [sameOutput, parent_child plainName_typesFileName]
    exact ensureDirectories_eq_self levelLimit_pos (reaches.locate reached)
      (reaches.kept base standing)
  rw [← sameOutput] at writes
  simp only [Workspace.aggregate, planned, ensured, writes]

theorem nullFree_typesPath {root pallet : String} (clean : '\x00' ∉ root.toList)
    (listed : pallet ∈ standardPallets) :
    (typesPath ((Path.ofString root).child palletsDirectoryName) pallet).NullFree :=
  (((Path.nullFree_ofChars clean).child (by decide)).child
    (nullFree_standardPallets pallet listed)).child (by decide)

theorem dot_mem_typesPath (directory : Path) (pallet : String) :
    '.' ∈ (typesPath directory pallet).toString.toList := by
  have named : typesFileName ∈ (typesPath directory pallet).names := by
    rw [typesPath, names_child plainName_typesFileName]
    exact List.mem_append_right _ List.mem_cons_self
  rw [Path.toString, String.toList_ofList]
  exact Path.mem_toChars named (by decide)

/-- How a run ends that fails because of the file. -/
inductive Ending (workspace : Workspace) (path : Path) : Run → Prop
  | refused {failure : Failure} :
      workspace.loadTypes path = .error failure → failure.isReported = true →
        failure.Names path →
          Ending workspace path ⟨.ok 1, "", (Event.failed failure).line ++ "\n", workspace⟩
  | unread {failure : Failure} :
      workspace.loadTypes path = .error failure → failure.IsUnread →
        Ending workspace path ⟨.error failure, "", "", workspace⟩
  | unencodable {types : Members} {run : Utf8.SurrogateRun} :
      workspace.loadTypes path = .ok types →
        ¬ (Value.object types).content.NoSurrogates →
          ¬ path.toString.toList <:+: (Event.failed (.unencodable run)).line.toList →
            Ending workspace path
              ⟨.ok 1, "", (Event.failed (.unencodable run)).line ++ "\n", workspace⟩
  | notFinite {types : Members} {kind : NonFinite} :
      workspace.loadTypes path = .ok types →
        .nonFinite kind ∈ (Value.object types).floats →
          Ending workspace path ⟨.error (.notFinite kind), "", "", workspace⟩

section TwoTrees

variable {first second : Workspace} {site : Site} {root pallet : String} {place : Location}

/-- If a run fails that would not if one pallet's file held an empty object, then either the
file is refused, and the run ends in good order and names it; or the file is not read to its
end; or it is read as types that cannot be written. The last two do not name it. The pallet
may lack its directory, unless the root leads through it and back. -/
theorem run_ending (clean : '\x00' ∉ root.toList) (plain : root.toList.head? ≠ some '-')
    (listed : pallet ∈ standardPallets)
    (located : second.locate (typesPath ((Path.ofString root).child palletsDirectoryName)
      pallet) = .ok place)
    (emptied : EmptiedAt place first second)
    (way : ".." ∉ (Path.ofString root).names ∨
      first.tree.entry? place.tail = some .directory)
    (fails : (first.run site .standard ["--root", root]).exit ≠ .ok 0)
    (ends : (second.run site .standard ["--root", root]).exit = .ok 0) :
    Ending first (typesPath ((Path.ofString root).child palletsDirectoryName) pallet)
      (first.run site .standard ["--root", root]) := by
  have resolved : site.resolve (rootRequest root).root (rootRequest root).output =
      .ok (Path.ofString root, (Path.ofString root).child typesFileName) := rfl
  have wayIn := way.imp_left (descends_child plainName_palletsDirectoryName)
  obtain ⟨output, done⟩ := (run_root_exit_ok_zero_iff plain).mp ends
  obtain ⟨planOther, _, plannedOther, _⟩ := aggregate_eq_ok done
  obtain ⟨base, layers, merges⟩ := plan_eq_ok_iff.mp plannedOther
  have sameRoot : Path.ofString root = base :=
    congrArg Prod.fst (Except.ok.inj (resolved.symm.trans merges.resolved))
  subst sameRoot
  obtain ⟨before, after, lower, upper, split, rfl, loadedBefore, loadedAfter⟩ :=
    emptied.loads wayIn listed located merges.loaded
  cases loaded : first.loadTypes
      (typesPath ((Path.ofString root).child palletsDirectoryName) pallet) with
  | error failure =>
      have collected : first.collectTypes .standard ((Path.ofString root).child
          palletsDirectoryName) (before ++ pallet :: after) = _ :=
        collectTypes_of_failing loadedBefore loaded
      rw [← split] at collected
      rw [run_root_of_failed plain
        ((Fails.of_collectTypes collected).aggregate site _ none _ _ resolved rfl)]
      rcases failure_of_loadTypes (nullFree_typesPath clean listed) loaded with
        reported | unread
      · rw [if_pos reported]
        exact .refused loaded reported (names_of_loadTypes loaded reported)
      · rw [if_neg (Bool.eq_false_iff.mp unread.unreported)]
        exact .unread loaded unread
  | ok types =>
      have all : first.Loads (typesPaths (Path.ofString root) standardPallets)
          (lower ++ types :: upper) := by
        rw [typesPaths, split, List.map_append, List.map_cons]
        exact List.rel_append loadedBefore (.cons loaded loadedAfter)
      cases encoded : encodeTypes
          (.object (Ordered.stack (Seeds.standard.layers ++ (lower ++ types :: upper)))) with
      | ok content =>
          obtain ⟨plan, planned⟩ := (exists_plan_iff resolved all).mpr
            (exists_encodeTypes_iff.mp ⟨content, encoded⟩)
          have inDirectory := emptied.inDirectory
            (wayIn.imp_left (descends_typesPath listed)) located loaded
          have succeeds := emptied.aggregate inDirectory listed located resolved planned done
          exact absurd ((run_root_exit_ok_zero_iff plain).mpr ⟨_, succeeds⟩) fails
      | error failure =>
          rw [run_root_of_failed plain (aggregate_of_unwritten resolved all encoded)]
          have writable := (encodeTypes_eq_ok_iff.mp merges.encoded).1
          change (Value.object (Ordered.stack (Seeds.standard.layers ++ _))).Writable at writable
          rw [← List.append_assoc] at writable encoded
          have distinct : ∀ layer ∈ Seeds.standard.layers ++ lower ++ types :: upper,
              (Ordered.keys layer).Nodup := by
            rw [List.append_assoc]
            exact fun layer member => nodup_keys_of_readable (List.forall_mem_append.mpr
              ⟨Seeds.readable_standard, readable_of_all_loaded all⟩ layer member)
          rcases cause_of_encodeTypes_emptied distinct writable encoded with
            ⟨run, rfl, surrogates⟩ | ⟨kind, rfl, infinite⟩
          · refine .unencodable loaded surrogates fun within => ?_
            exact dot_not_mem_line run (within.subset (dot_mem_typesPath _ pallet))
          · exact .notFinite loaded infinite

end TwoTrees

open Grammar

def sampleEscape : List Char := ['"', '\\', 'u', 'd', '8', '0', '0', '"']

theorem scalar_sampleEscape : Scalar sampleEscape (.string [sampleHalf]) := by
  have half : PartText ['\\', 'u', 'd', '8', '0', '0'] (.unit 0xD800) := .number rfl
  exact .string (.quoted (.cons half .nil))

def sampleBlamed : Workspace :=
  samplePallets.saving (sampleFile "roles")
    (Utf8.encode ('{' :: separated [sampleSpelling 'a' sampleEscape]))

set_option maxRecDepth 4096 in
theorem emptiedAt_sampleBlamed :
    EmptiedAt ["types.json", "roles", "pallets"] sampleBlamed samplePallets := by
  have written : samplePallets.writeFile (sampleFile "roles")
      (Utf8.encode ('{' :: separated [sampleSpelling 'a' sampleEscape])) = .ok sampleBlamed := rfl
  obtain ⟨location, located, places⟩ := writeFile_places written
  have atPlace : samplePallets.locate (sampleFile "roles") =
      .ok ["types.json", "roles", "pallets"] := rfl
  cases atPlace.symm.trans located
  refine ⟨places.directory.symm, rfl, fun location notBelow _ => (places.elsewhere ?_).symm⟩
  rintro rfl
  exact notBelow (List.suffix_refl _)

def sampleHeld (pallet : String) : Members :=
  if pallet = "roles" then [([.scalar 'a'], .string [sampleHalf])] else []

theorem loadTypes_sampleBlamed : ∀ pallet ∈ standardPallets,
    sampleBlamed.loadTypes (sampleFile pallet) = .ok (sampleHeld pallet) := by
  have others : ∀ pallet ∈ standardPallets, pallet ≠ "roles" →
      sampleBlamed.readFile (sampleFile pallet) = .ok [0x7B, 0x7D] := by
    decide +kernel
  intro pallet listed
  by_cases isRoles : pallet = "roles"
  · have spelled : MemberPairs [sampleSpelling 'a' sampleEscape] (sampleHeld "roles") :=
      .cons (member_sampleSpelling (by decide) scalar_sampleEscape) .nil
    rw [isRoles]
    exact (holdsObject_of_separated (by decide +kernel) spelled).loadTypes spelled
  · rw [sampleHeld, if_neg isRoles]
    exact loadTypes_eq_ok_iff.mpr ⟨_, others pallet listed isRoles, rfl⟩

theorem exit_samplePallets :
    (samplePallets.run sampleSite .standard ["--root", "/"]).exit = .ok 0 := by
  decide +kernel

theorem run_sampleBlamed :
    sampleBlamed.run sampleSite .standard ["--root", "/"] =
      ⟨.ok 1, "", (Event.failed (.unencodable ⟨31, ⟨0⟩, 1⟩)).line ++ "\n", sampleBlamed⟩ := by
  have loaded := loads_map loadTypes_sampleBlamed
  have encoded : encodeTypes (.object (Ordered.stack
      (Seeds.standard.layers ++ standardPallets.map sampleHeld))) =
        .error (.unencodable ⟨31, ⟨0⟩, 1⟩) := rfl
  have aggregated : sampleBlamed.aggregate sampleSite (rootRequest "/") = _ :=
    aggregate_of_unwritten rfl loaded encoded
  exact run_root_of_failed (by decide) aggregated

theorem run_ending_sampleBlamed :
    (samplePallets.run sampleSite .standard ["--root", "/"]).exit = .ok 0 ∧
      Ending sampleBlamed (sampleFile "roles")
        (sampleBlamed.run sampleSite .standard ["--root", "/"]) := by
  have fails : (sampleBlamed.run sampleSite .standard ["--root", "/"]).exit ≠ .ok 0 := by
    rw [run_sampleBlamed]
    decide
  refine ⟨exit_samplePallets, ?_⟩
  exact run_ending (by decide) (by decide) (by decide) (by decide +kernel)
    emptiedAt_sampleBlamed (.inl (by decide)) fails exit_samplePallets

theorem run_errors_sampleBlamed :
    EmptiedAt ["types.json", "roles", "pallets"] sampleBlamed samplePallets ∧
      (samplePallets.run sampleSite .standard ["--root", "/"]).exit = .ok 0 ∧
      (sampleBlamed.run sampleSite .standard ["--root", "/"]).exit = .ok 1 ∧
      (sampleBlamed.run sampleSite .standard ["--root", "/"]).errors =
        "ERROR: Failed to read/parse pallet types: aggregated types cannot be written as " ++
          "UTF-8 ('utf-8' codec can't encode character '\\ud800' in position 31: " ++
          "surrogates not allowed)\n" ∧
      ¬ "/pallets/roles/types.json".toList <:+:
        (sampleBlamed.run sampleSite .standard ["--root", "/"]).errors.toList := by
  refine ⟨emptiedAt_sampleBlamed, exit_samplePallets, ?_⟩
  rw [run_sampleBlamed]
  exact ⟨rfl, by decide +kernel, by decide +kernel⟩

end Workspace

end PalletTypes

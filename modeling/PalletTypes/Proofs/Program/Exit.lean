import PalletTypes.Program
import PalletTypes.Proofs.Aggregation.Effect
import PalletTypes.Proofs.Aggregation.Failures
import PalletTypes.Proofs.Aggregation.Result
import PalletTypes.Proofs.Options.Values

/-!
How a run ends. It has an exit status, zero only if the output holds the aggregated types,
unless a failure that is not reported comes up.
-/

namespace PalletTypes

open Json

/-- Surroundings in which no path holds a null character and no root is to be found in
a home directory. -/
structure Site.Plain (site : Site) : Prop where
  clean : ∀ root, site.environment.get? rootVariable = some root → '\x00' ∉ root.toList
  noTilde : ∀ root, site.environment.get? rootVariable = some root →
    ∀ first names, Path.ofString root = ⟨.relative, first :: names⟩ →
      first.toList.head? ≠ some '~'
  repository : site.repository.NullFree

theorem Site.Plain.defaultRoot {site : Site} (plain : site.Plain) :
    ∃ root, site.defaultRoot = .ok root ∧ root.NullFree := by
  unfold Site.defaultRoot
  split
  · exact ⟨_, rfl, plain.repository⟩
  · exact ⟨_, rfl, plain.repository⟩
  · rename_i root _ named
    rw [Path.expandHome_of_no_tilde (plain.noTilde root named)]
    exact ⟨_, rfl, Path.nullFree_ofChars (plain.clean root named)⟩

theorem Site.Plain.resolve {site : Site} (plain : site.Plain) {root output : Option Path}
    (rootFree : ∀ path, root = some path → path.NullFree)
    (outputFree : ∀ path, output = some path → path.NullFree) :
    ∃ base place, site.resolve root output = .ok (base, place) ∧ base.NullFree ∧
      place.NullFree := by
  have placeFree {base : Path} (baseFree : base.NullFree) :
      (output.getD (base.child typesFileName)).NullFree := by
    cases output with
    | none => exact baseFree.child (by decide)
    | some output => exact outputFree output rfl
  cases root with
  | none =>
      obtain ⟨base, found, baseFree⟩ := plain.defaultRoot
      refine ⟨base, _, ?_, baseFree, placeFree baseFree⟩
      simp only [Site.resolve, found, Except.map]
  | some root =>
      have baseFree := rootFree root rfl
      exact ⟨root, _, rfl, baseFree, placeFree baseFree⟩

theorem nullFree_of_ofTexts {texts : List (List Char)} {options : Options}
    (clean : ∀ text ∈ texts, '\x00' ∉ text) (runs : Command.ofTexts texts = .run options) :
    (∀ path, options.root.join = some path → path.NullFree) ∧
      ∀ path, options.output.join = some path → path.NullFree := by
  have spelled := Command.spelledBy_ofTexts runs
  have free {path : Path}
      (named : options.root = some (some path) ∨ options.output = some (some path)) :
      path.NullFree := by
    obtain ⟨value, ⟨text, member, part⟩, rfl⟩ := spelled path named
    exact Path.nullFree_ofChars fun inside => clean text member (part.subset inside)
  exact ⟨fun path named => free (Or.inl (Option.join_eq_some_iff.mp named)),
    fun path named => free (Or.inr (Option.join_eq_some_iff.mp named))⟩

namespace Workspace

/-- Why a run ends without an exit status: the first file that is not loaded has a whole
number that is too long, or nests too deeply; the types hold a double that is not finite;
or too many directories are missing on the way to the output. -/
inductive Escapes (workspace : Workspace) (site : Site) (request : Request)
    (checks : Bool) : Failure → Prop
  | longInteger {root output : Path} {digits : Nat} :
      site.resolve request.root request.output = .ok (root, output) →
        workspace.RefusesFirst (root.child palletsDirectoryName) request.pallets
          (.longInteger digits) →
          Escapes workspace site request checks (.longInteger digits)
  | deepFile {root output : Path} :
      site.resolve request.root request.output = .ok (root, output) →
        workspace.RefusesFirst (root.child palletsDirectoryName) request.pallets
          .deepNesting →
          Escapes workspace site request checks .deepNesting
  | notFinite {root output : Path} {types : Members} {kind : NonFinite} :
      site.resolve request.root request.output = .ok (root, output) →
        (workspace.collectTypes request.seeds (root.child palletsDirectoryName)
          request.pallets).result = .ok types →
          (Value.object types).floats.findSome? Binary64.nonFinite? = some kind →
            Escapes workspace site request checks (.notFinite kind)
  | deepDirectories {root output : Path} {types : Members} {content : Bytes} :
      checks = false → workspace.Prepared site request root output types content →
        (workspace.ensureDirectories levelLimit output.parent).2 = .error .deepNesting →
          Escapes workspace site request checks .deepNesting

variable {workspace : Workspace} {site : Site} {request : Request} {root output : Path}
  {failure : Failure}

theorem escapes_of_plan {checks : Bool}
    (resolved : site.resolve request.root request.output = .ok (root, output))
    (rootFree : root.NullFree) (names : ∀ pallet ∈ request.pallets, '\x00' ∉ pallet.toList)
    (failed : (workspace.plan site request).result = .error failure)
    (unreported : failure.isReported = false) :
    workspace.Escapes site request checks failure := by
  rcases (plan_eq_error_iff resolved).mp failed with refuses | ⟨types, collected, unwritten⟩
  · rcases failure_of_refusesFirst (rootFree.child (by decide)) names refuses with
      reported | unread
    · rw [reported] at unreported
      cases unreported
    · rcases unread with rfl | ⟨digits, rfl⟩
      · exact .deepFile resolved refuses
      · exact .longInteger resolved refuses
  · rcases failure_of_encodeTypes unwritten with reported | ⟨kind, rfl⟩
    · rw [reported] at unreported
      cases unreported
    · exact .notFinite resolved collected (encodeTypes_eq_notFinite_iff.mp unwritten)

theorem Escapes.planned {checks : Bool}
    (escapes : workspace.Escapes site request checks failure) :
    (workspace.plan site request).result = .error failure ∨
      checks = false ∧ ∃ plan, (workspace.plan site request).result = .ok plan ∧
        failure = .deepNesting ∧
        (workspace.ensureDirectories levelLimit plan.output.parent).2 =
          .error .deepNesting := by
  cases escapes with
  | longInteger resolved refuses | deepFile resolved refuses =>
      exact Or.inl ((plan_eq_error_iff resolved).mpr (Or.inl refuses))
  | notFinite resolved collected nonFinite =>
      exact Or.inl ((plan_eq_error_iff resolved).mpr
        (Or.inr ⟨_, collected, encodeTypes_eq_notFinite_iff.mpr nonFinite⟩))
  | deepDirectories writes prepared stopped =>
      exact Or.inr ⟨writes, _, prepared.planned, rfl, stopped⟩

theorem Escapes.unreported {checks : Bool}
    (escapes : workspace.Escapes site request checks failure) :
    failure.isReported = false := by
  cases escapes <;> rfl

section Plain

variable (resolved : site.resolve request.root request.output = .ok (root, output))
  (rootFree : root.NullFree) (outputFree : output.NullFree)
  (names : ∀ pallet ∈ request.pallets, '\x00' ∉ pallet.toList)
include resolved rootFree outputFree names

omit rootFree outputFree names in
theorem output_of_plan {plan : Plan}
    (planned : (workspace.plan site request).result = .ok plan) : plan.output = output := by
  obtain ⟨base, types, prepared, _⟩ := plan_eq_ok_iff_prepared.mp planned
  have samePlaces := prepared.resolved
  rw [resolved] at samePlaces
  exact (congrArg Prod.snd (Except.ok.inj samePlaces)).symm

theorem check_escapes_iff :
    ((workspace.check site request).result = .error failure ∧
        failure.isReported = false) ↔
      workspace.Escapes site request true failure := by
  constructor
  · rintro ⟨failed, unreported⟩
    rcases check_eq_error failed with planned | ⟨plan, fault, planned, rfl, refused⟩
    · exact escapes_of_plan resolved rootFree names planned unreported
    · -- The output's path has no null character, so what is left is a refusal of access.
      rw [output_of_plan resolved planned] at refused
      have denied : fault.IsDenied := by
        rcases refused with refused | refused
        · exact isDenied_of_pathExists refused
        · exact isDenied_of_readFile outputFree refused
      rw [isReported_ofAccess denied] at unreported
      cases unreported
  · intro escapes
    refine ⟨?_, escapes.unreported⟩
    rcases escapes.planned with planned | ⟨writes, _⟩
    · simp only [check, planned]
    · cases writes

theorem aggregate_escapes_iff :
    ((workspace.aggregate site request).result = .error failure ∧
        failure.isReported = false) ↔
      workspace.Escapes site request false failure := by
  constructor
  · rintro ⟨failed, unreported⟩
    rcases aggregate_eq_error failed with planned | ⟨plan, fault, planned, rfl, refused⟩
    · exact escapes_of_plan resolved rootFree names planned unreported
    · have sameOutput := output_of_plan resolved planned
      have denied : fault.IsDenied ∨ fault = .deepNesting ∧
          (workspace.ensureDirectories levelLimit plan.output.parent).2 =
            .error .deepNesting := by
        rcases refused with refused | ⟨made, refused⟩
        · rcases isDenied_of_ensureDirectories (sameOutput ▸ outputFree.parent) refused with
            denied | rfl
          · exact Or.inl denied
          · exact Or.inr ⟨rfl, refused⟩
        · exact Or.inl (isDenied_of_writeFile (sameOutput ▸ outputFree) refused)
      rcases denied with denied | ⟨rfl, stopped⟩
      · rw [isReported_ofAccess denied] at unreported
        cases unreported
      · obtain ⟨base, types, prepared, _⟩ := plan_eq_ok_iff_prepared.mp planned
        exact .deepDirectories rfl prepared stopped
  · intro escapes
    refine ⟨?_, escapes.unreported⟩
    rcases escapes.planned with planned | ⟨_, plan, planned, rfl, stopped⟩
    · exact (aggregate_of_plan_error planned).1
    · cases ensured : workspace.ensureDirectories levelLimit plan.output.parent with
      | mk made result =>
          rw [ensured] at stopped
          cases stopped
          simp only [aggregate, planned, ensured]
          rfl

end Plain

end Workspace

/-! How the outcome of an operation ends a run. -/

namespace Run

variable {verbose : Bool} {outcome : Outcome Nat}

theorem exit_eq_error_iff {failure : Failure} :
    (ofOutcome verbose outcome).exit = .error failure ↔
      outcome.result = .error failure ∧ failure.isReported = false := by
  unfold ofOutcome
  cases outcome.result with
  | ok status => simp only [reduceCtorEq, false_and]
  | error other =>
      by_cases reported : other.isReported = true
      · simp only [if_pos reported, reduceCtorEq, Except.error.injEq, false_iff, not_and]
        rintro rfl unreported
        rw [reported] at unreported
        cases unreported
      · simp only [if_neg reported, Except.error.injEq]
        constructor
        · rintro rfl
          exact ⟨rfl, Bool.eq_false_of_not_eq_true reported⟩
        · exact fun both => both.1

theorem result_of_exit_eq_ok {status : Nat}
    (ended : (ofOutcome verbose outcome).exit = .ok status) :
    outcome.result = .ok status ∨ status = 1 := by
  unfold ofOutcome at ended
  split at ended
  · rename_i found
    exact Or.inl (found.trans ended)
  · split at ended
    · exact Or.inr (Except.ok.inj ended).symm
    · cases ended

theorem workspace_ofOutcome : (ofOutcome verbose outcome).workspace = outcome.workspace := by
  unfold ofOutcome
  split
  · rfl
  · split <;> rfl

end Run

namespace Workspace

variable {workspace : Workspace} {site : Site} {seeds : Seeds} {options : Options}

theorem perform_eq_error_iff {failure : Failure} :
    (workspace.perform site seeds options).result = .error failure ↔
      if options.check then
        (workspace.check site (options.request seeds)).result = .error failure
      else (workspace.aggregate site (options.request seeds)).result = .error failure := by
  unfold perform
  cases options.check with
  | true => simp only [if_true, Outcome.mapResult, map_eq_error_iff]
  | false =>
      simp only [Bool.false_eq_true, if_false, Outcome.mapResult, map_eq_error_iff]

theorem status_of_perform {status : Nat}
    (performed : (workspace.perform site seeds options).result = .ok status) :
    status = 0 ∨ status = 1 := by
  unfold perform at performed
  cases checks : options.check with
  | true =>
      simp only [checks, if_true, Outcome.mapResult] at performed
      obtain ⟨current, _, rfl⟩ := map_eq_ok_iff.mp performed
      cases current
      · exact Or.inr rfl
      · exact Or.inl rfl
  | false =>
      simp only [checks, Bool.false_eq_true, if_false, Outcome.mapResult] at performed
      obtain ⟨path, _, rfl⟩ := map_eq_ok_iff.mp performed
      exact Or.inl rfl

theorem nullFree_standardPallets : ∀ pallet ∈ standardPallets, '\x00' ∉ pallet.toList := by
  decide

/-- The output holds the aggregated types, as it did before if it is only checked. -/
structure Done (before after : Workspace) (site : Site) (request : Request)
    (checks : Bool) : Prop where
  held : ∃ root output types content,
    before.Prepared site request root output types content ∧
      after.readFile output = .ok content
  unchanged : checks = true → after = before

theorem done_of_perform (performed : (workspace.perform site seeds options).result = .ok 0) :
    workspace.Done (workspace.perform site seeds options).workspace site
      (options.request seeds) options.check := by
  unfold perform at performed ⊢
  cases checks : options.check with
  | true =>
      simp only [checks, if_true, Outcome.mapResult] at performed ⊢
      obtain ⟨current, checked, isZero⟩ := map_eq_ok_iff.mp performed
      cases current with
      | false => cases isZero
      | true =>
          obtain ⟨plan, planned, held⟩ := check_eq_true_iff.mp checked
          obtain ⟨root, types, prepared, _⟩ := plan_eq_ok_iff_prepared.mp planned
          rw [check_workspace]
          exact ⟨⟨root, plan.output, types, plan.content, prepared, held⟩, fun _ => rfl⟩
  | false =>
      simp only [checks, Bool.false_eq_true, if_false, Outcome.mapResult] at performed ⊢
      obtain ⟨output, aggregated, _⟩ := map_eq_ok_iff.mp performed
      obtain ⟨plan, made, planned, _⟩ := aggregate_eq_ok aggregated
      obtain ⟨root, types, prepared, _⟩ := plan_eq_ok_iff_prepared.mp planned
      exact ⟨⟨root, plan.output, types, plan.content, prepared,
        readFile_aggregate planned aggregated⟩, fun impossible => nomatch impossible⟩

section Accepted

variable {arguments : List String} (plain : site.Plain)
  (clean : ∀ argument ∈ arguments, '\x00' ∉ argument.toList)
  (accepted : Command.ofTexts (arguments.map String.toList) = .run options)
include plain clean accepted

omit plain clean in
theorem run_of_accepted :
    workspace.run site seeds arguments =
      .ofOutcome options.verbose (workspace.perform site seeds options) := by
  simp only [run, accepted]

theorem run_exit_eq_error_iff {failure : Failure} :
    (workspace.run site seeds arguments).exit = .error failure ↔
      workspace.Escapes site (options.request seeds) options.check failure := by
  obtain ⟨rootsFree, outputsFree⟩ :=
    nullFree_of_ofTexts (List.forall_mem_map.mpr clean) accepted
  obtain ⟨root, output, resolved, rootFree, outputFree⟩ :=
    plain.resolve rootsFree outputsFree
  have names : ∀ pallet ∈ (options.request seeds).pallets, '\x00' ∉ pallet.toList :=
    nullFree_standardPallets
  rw [run_of_accepted accepted, Run.exit_eq_error_iff, perform_eq_error_iff]
  cases options.check with
  | true => exact check_escapes_iff resolved rootFree outputFree names
  | false => exact aggregate_escapes_iff resolved rootFree outputFree names

/-- A run whose arguments are accepted ends with status zero or one, unless a failure comes
up that is not reported; and with zero only if the output holds the aggregated types. -/
theorem run_exit_cases :
    (∀ failure, (workspace.run site seeds arguments).exit = .error failure ↔
      workspace.Escapes site (options.request seeds) options.check failure) ∧
      (∀ status, (workspace.run site seeds arguments).exit = .ok status →
        status = 0 ∨ status = 1) ∧
      ((workspace.run site seeds arguments).exit = .ok 0 →
        workspace.Done (workspace.run site seeds arguments).workspace site
          (options.request seeds) options.check) := by
  refine ⟨fun failure => run_exit_eq_error_iff plain clean accepted, ?_, ?_⟩
  · intro status ended
    rw [run_of_accepted accepted] at ended
    rcases Run.result_of_exit_eq_ok ended with performed | isOne
    · exact status_of_perform performed
    · exact Or.inr isOne
  · intro ended
    rw [run_of_accepted accepted] at ended ⊢
    rw [Run.workspace_ofOutcome]
    rcases Run.result_of_exit_eq_ok ended with performed | impossible
    · exact done_of_perform performed
    · cases impossible

end Accepted

theorem plain_sampleSite : sampleSite.Plain where
  clean := fun _ named => nomatch named
  noTilde := fun _ named => nomatch named
  repository := fun _ member => nomatch member

/-- A tree with a file for each pallet, which holds an empty object. -/
def samplePallets : Workspace :=
  standardPallets.foldl (fun tree pallet => tree.saving (sampleFile pallet) [0x7B, 0x7D])
    .empty

set_option maxRecDepth 4096 in
theorem run_exit_cases_samplePallets :
    (samplePallets.run sampleSite .standard []).exit = .ok 0 ∧
      samplePallets.Done (samplePallets.run sampleSite .standard []).workspace sampleSite
        (Options.standard.request .standard) Options.standard.check := by
  have clean : ∀ argument ∈ ([] : List String), '\x00' ∉ argument.toList :=
    fun _ member => nomatch member
  have accepted : Command.ofTexts (([] : List String).map String.toList) =
      .run .standard := rfl
  have ended : (samplePallets.run sampleSite .standard []).exit = .ok 0 := rfl
  obtain ⟨_, _, zero⟩ := run_exit_cases plain_sampleSite clean accepted
  exact ⟨ended, zero ended⟩

def sampleDigits : List Char := List.replicate (NumberLiteral.digitLimit + 1) '1'

theorem isWhole_sampleDigits : Grammar.Whole sampleDigits := by
  refine .digits ⟨List.cons_ne_nil _ _, fun digit member => ?_⟩ (by decide)
  rw [List.eq_of_mem_replicate member]
  rfl

def sampleNumber : Workspace :=
  empty.saving (sampleFile "faucets") (Utf8.encode sampleDigits)

/-- The failure of the first file is not reported, so the run has no exit status. -/
theorem run_exit_sampleNumber :
    sampleSite.Plain ∧ Command.ofTexts [] = .run .standard ∧
      (sampleNumber.run sampleSite .standard []).exit = .error (.longInteger 4301) := by
  have clean : ∀ argument ∈ ([] : List String), '\x00' ∉ argument.toList :=
    fun _ member => nomatch member
  have accepted : Command.ofTexts (([] : List String).map String.toList) =
      .run .standard := rfl
  have held : sampleNumber.readFile (sampleFile "faucets") =
      .ok (Utf8.encode sampleDigits) := rfl
  have count : sampleDigits.length = 4301 := List.length_replicate
  have decoded := decodeTypes_of_longInteger (sampleFile "faucets") isWhole_sampleDigits
    (by rw [count]; decide)
  have refused : sampleNumber.loadTypes (sampleFile "faucets") =
      .error (.longInteger 4301) := by
    rw [loadTypes, held, ← count]
    exact decoded
  refine ⟨plain_sampleSite, rfl, ?_⟩
  rw [run_exit_eq_error_iff plain_sampleSite clean accepted]
  exact .longInteger rfl ⟨[], "faucets", _, [], rfl, .nil, refused⟩

end Workspace

end PalletTypes

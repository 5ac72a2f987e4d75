import PalletTypes.Program
import PalletTypes.Proofs.Aggregation.Result
import PalletTypes.Proofs.Options.Spelling
import PalletTypes.Proofs.Path

/-!
A root on the command line and a root in the environment. A run with a root before all its other
arguments is the run without it in an environment that names the root.
-/

namespace PalletTypes

/-! A root before the other arguments. -/

namespace Options

def orRoot (given : Option (Option Path)) (options : Options) : Options :=
  { options with root := options.root.or given }

theorem take?_orRoot (given : Option (Option Path)) (options : Options)
    (occurrence : Occurrence) :
    (options.orRoot given).take? occurrence =
      (options.take? occurrence).map (orRoot given) := by
  fun_cases Options.take? options occurrence <;> rfl

end Options

namespace Command

def mapOptions (change : Options → Options) : Command → Command
  | .run options => .run (change options)
  | .help => .help
  | .refused fault => .refused fault

variable {given : Option (Option Path)}

theorem taking_orRoot (rest : Options → Command)
    (commutes : ∀ options,
      rest (options.orRoot given) = (rest options).mapOptions (.orRoot given))
    (options : Options) (occurrences : List Occurrence) :
    taking (options.orRoot given) rest occurrences =
      (taking options rest occurrences).mapOptions (.orRoot given) := by
  induction occurrences generalizing options with
  | nil => exact commutes options
  | cons occurrence occurrences induction =>
      rw [taking, taking, Options.take?_orRoot]
      cases options.take? occurrence with
      | none => rfl
      | some options => exact induction options

/-- What was taken for the root before has no part in how arguments are taken. -/
theorem ofArguments_orRoot (options : Options) (strays : List (List Char))
    (arguments : List Argument) :
    ofArguments (options.orRoot given) strays arguments =
      (ofArguments options strays arguments).mapOptions (.orRoot given) := by
  induction options, strays, arguments using ofArguments.induct with
  | case1 options => rfl
  | case2 options strays notEmpty =>
      rw [ofArguments, ofArguments, if_neg notEmpty, if_neg notEmpty]
      rfl
  | case3 options strays argument arguments noOption induction =>
      unfold ofArguments
      simp only [noOption]
      exact induction
  | case4 options strays argument arguments fault refused =>
      unfold ofArguments
      simp only [refused]
      rfl
  | case5 options strays argument occurrences arguments found induction =>
      unfold ofArguments
      simp only [found]
      exact taking_orRoot (fun options => ofArguments options strays arguments) induction
        options occurrences
  | case6 options strays argument occurrences slot value arguments found induction =>
      unfold ofArguments
      simp only [found]
      exact taking_orRoot (fun options => ofArguments options strays arguments) induction
        options (occurrences ++ [.slot slot value])
  | case7 options strays argument arguments occurrences slot found noValue =>
      unfold ofArguments
      simp only [found]
      rfl

theorem ofTexts_root_cons (value : List Char) (texts : List (List Char)) :
    ofTexts (("--root=".toList ++ value) :: texts) =
      (ofTexts texts).mapOptions (.orRoot (some (Slot.path? value))) := by
  have reads : Reads ["--root=".toList ++ value] [.slot .root value] :=
    reads_of_spells (.joined (Switch.isName_longName (.slot .root)))
  have read := reads.ofTexts_append texts
  rw [List.singleton_append] at read
  rw [read, ofTexts]
  cases Argument.classifyAll texts with
  | error fault => rfl
  | ok arguments => exact ofArguments_orRoot .standard [] arguments

end Command

/-! A root in the environment. -/

namespace Site

def naming (site : Site) (root : String) : Site :=
  { site with environment := Ordered.put rootVariable root site.environment }

variable {site : Site} {root : String}

theorem defaultRoot_naming (nonempty : root ≠ "")
    (noTilde : ∀ first names, Path.ofString root = ⟨.relative, first :: names⟩ →
      first.toList.head? ≠ some '~') :
    (site.naming root).defaultRoot = .ok (Path.ofString root) := by
  have held : (site.naming root).environment.get? rootVariable = some root :=
    Ordered.lookup?_put_self _ _ _
  unfold defaultRoot
  split
  next none => cases held.symm.trans none
  next empty => exact absurd (Option.some.inj (held.symm.trans empty)) nonempty
  next other _ found =>
    obtain rfl := Option.some.inj (held.symm.trans found)
    rw [Path.expandHome_of_no_tilde noTilde]

theorem resolve_naming (nonempty : root ≠ "")
    (noTilde : ∀ first names, Path.ofString root = ⟨.relative, first :: names⟩ →
      first.toList.head? ≠ some '~') (given output : Option Path) :
    (site.naming root).resolve given output =
      site.resolve (given.or (some (Path.ofString root))) output := by
  cases given with
  | some given => rfl
  | none => simp only [resolve, defaultRoot_naming nonempty noTilde, Option.none_or]

end Site

namespace Workspace

variable {workspace : Workspace} {site other : Site} {seeds : Seeds}

theorem plan_of_resolve {request : Request} {root : Option Path}
    (same : site.resolve request.root request.output = other.resolve root request.output) :
    workspace.plan site request = workspace.plan other { request with root } := by
  simp only [plan, same]

/-- The site and the root have no other part in a run than in what they come to together. -/
theorem perform_of_resolve {options : Options} {root : Option (Option Path)}
    (same : site.resolve options.root.join options.output.join =
      other.resolve root.join options.output.join) :
    workspace.perform site seeds options = workspace.perform other seeds { options with root } := by
  have planned : workspace.plan site (options.request seeds) =
      workspace.plan other (Options.request { options with root } seeds) :=
    plan_of_resolve same
  simp only [perform, aggregate, check, planned]
  rfl

/-- The last root of a command line that begins with the given one is two dashes, and these
are no path. -/
def LosesRoot (root : String) (arguments : List String) : Prop :=
  ∃ options, Command.ofTexts (arguments.map String.toList) = .run options ∧
    (options.root = some none ∨ options.root = none ∧ root = "--")

theorem path?_of_ne {root : String} (noDashes : root ≠ "--") :
    Slot.path? root.toList = some (Path.ofString root) :=
  if_neg fun dashes => noDashes (String.toList_inj.mp dashes)

theorem join_orRoot {root : String} {arguments : List String} {options : Options}
    (accepted : Command.ofTexts (arguments.map String.toList) = .run options)
    (keeps : ¬ LosesRoot root arguments) :
    (options.orRoot (some (Slot.path? root.toList))).root.join =
      options.root.join.or (some (Path.ofString root)) := by
  cases own : options.root with
  | none =>
      have noDashes : root ≠ "--" := fun dashes =>
        keeps ⟨options, accepted, Or.inr ⟨own, dashes⟩⟩
      rw [path?_of_ne noDashes]
      simp [Options.orRoot, own]
  | some path =>
      cases path with
      | none => exact absurd ⟨options, accepted, Or.inl own⟩ keeps
      | some path => simp [Options.orRoot, own]

theorem join_orRoot_of_loses {root : String} {options : Options}
    (loses : options.root = some none ∨ options.root = none ∧ root = "--") :
    (options.orRoot (some (Slot.path? root.toList))).root.join = options.root.join := by
  rcases loses with own | ⟨own, rfl⟩
  · simp [Options.orRoot, own]
  · simp [Options.orRoot, own, Slot.path?]

/-- A run with a root before all other arguments is the run without it in an environment that
names the root. Where the command line loses its root, the given one has no part in the run. -/
theorem run_root_first {root : String} (nonempty : root ≠ "")
    (noTilde : ∀ first names, Path.ofString root = ⟨.relative, first :: names⟩ →
      first.toList.head? ≠ some '~') (arguments : List String) :
    (¬ LosesRoot root arguments →
      workspace.run site seeds (("--root=" ++ root) :: arguments) =
        workspace.run (site.naming root) seeds arguments) ∧
      (LosesRoot root arguments →
        workspace.run site seeds (("--root=" ++ root) :: arguments) =
          workspace.run site seeds arguments) := by
  have read : Command.ofTexts ((("--root=" ++ root) :: arguments).map String.toList) =
      (Command.ofTexts (arguments.map String.toList)).mapOptions
        (.orRoot (some (Slot.path? root.toList))) := by
    rw [List.map_cons, String.toList_append]
    exact Command.ofTexts_root_cons root.toList (arguments.map String.toList)
  constructor
  · intro keeps
    rw [run, run, read]
    cases accepted : Command.ofTexts (arguments.map String.toList) with
    | help => rfl
    | refused fault => rfl
    | run options =>
        have same : (site.naming root).resolve options.root.join options.output.join =
            site.resolve (options.orRoot (some (Slot.path? root.toList))).root.join
              options.output.join := by
          rw [Site.resolve_naming nonempty noTilde, join_orRoot accepted keeps]
        exact congrArg (Run.ofOutcome options.verbose) (perform_of_resolve same).symm
  · intro loses
    obtain ⟨options, accepted, lost⟩ := loses
    have same : site.resolve options.root.join options.output.join =
        site.resolve (options.orRoot (some (Slot.path? root.toList))).root.join
          options.output.join := by
      rw [join_orRoot_of_loses lost]
    rw [run, run, read, accepted]
    exact congrArg (Run.ofOutcome options.verbose) (perform_of_resolve same).symm

theorem run_root_first_samples :
    (¬ LosesRoot "-x//types=/" ["-v", "--check"] ∧
      Workspace.empty.run sampleSite .standard ["--root=-x//types=/", "-v", "--check"] =
        Workspace.empty.run (sampleSite.naming "-x//types=/") .standard ["-v", "--check"]) ∧
      LosesRoot "--" [] ∧
      Workspace.empty.run sampleSite .standard ["--root=--"] =
        Workspace.empty.run sampleSite .standard [] := by
  have spelled : Path.ofString "-x//types=/" = ⟨.relative, ["-x", "types="]⟩ := by decide
  have dashes : Path.ofString "--" = ⟨.relative, ["--"]⟩ := by decide
  have accepted : Command.ofTexts (["-v", "--check"].map String.toList) =
      .run { Options.standard with check := true, verbose := true } := rfl
  have keeps : ¬ LosesRoot "-x//types=/" ["-v", "--check"] := by
    intro loses
    obtain ⟨options, read, lost⟩ := loses
    cases accepted.symm.trans read
    simp [Options.standard] at lost
  have loses : LosesRoot "--" [] := ⟨.standard, rfl, Or.inr ⟨rfl, rfl⟩⟩
  refine ⟨⟨keeps, (run_root_first (by decide) ?_ ["-v", "--check"]).1 keeps⟩, loses,
    (run_root_first (by decide) ?_ []).2 loses⟩
  · intro first names same
    cases spelled.symm.trans same
    decide
  · intro first names same
    cases dashes.symm.trans same
    decide

/-- Two dashes name a directory in the environment, and none on the command line; there they
even hide the root that goes before them. -/
theorem run_root_sampleDashes :
    (Workspace.empty.run sampleSite .standard ["--root=--"]).errors =
        "ERROR: Failed to read/parse pallet types: [Errno 2] No such file or directory: " ++
          "'/pallets/faucets/types.json'\n" ∧
      (Workspace.empty.run (sampleSite.naming "--") .standard []).errors =
        "ERROR: Failed to read/parse pallet types: [Errno 2] No such file or directory: " ++
          "'--/pallets/faucets/types.json'\n" ∧
      (Workspace.empty.run sampleSite .standard ["--root=types", "--root=--"]).errors =
        "ERROR: Failed to read/parse pallet types: [Errno 2] No such file or directory: " ++
          "'/pallets/faucets/types.json'\n" ∧
      (Workspace.empty.run (sampleSite.naming "types") .standard ["--root=--"]).errors =
        "ERROR: Failed to read/parse pallet types: [Errno 2] No such file or directory: " ++
          "'types/pallets/faucets/types.json'\n" := by
  decide +kernel

end Workspace

end PalletTypes

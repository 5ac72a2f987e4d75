import PalletTypes.Configuration
import PalletTypes.Proofs.EnvFile
import PalletTypes.Proofs.Path

/-!
Which of several sources names the root. A root that is given goes before the variable of
the environment, that before the nearest environment file, and the repository comes last;
what lies below the source that decides has no part in it.
-/

namespace PalletTypes

/-- A path given by its spelling. An empty one counts as none. -/
def Path.given? (spelling : Option String) : Option Path :=
  (spelling.filter fun spelling => spelling ≠ "").map ofString

theorem Path.given?_of_ne_empty {spelling : String} (nonempty : spelling ≠ "") :
    given? (some spelling) = some (ofString spelling) := by
  simp [given?, nonempty]

namespace Site

variable {site after other : Site} {files others : List (Option (List Char))} {home : String}

def fileValue (site : Site) (files : List (Option (List Char))) (name : String) :
    Option String :=
  (files.findSome? id).bind fun text =>
    (Ordered.lookup? name (EnvFile.assigned site.environment (Newline.normalize text))).join

/-- Environment files are loaded, and the home directory is told. -/
structure Usual (site : Site) (home : String) : Prop where
  enabled : site.environment.get? EnvFile.disablingVariable = none
  atHome : site.environment.get? "HOME" = some home
  plain : home.toList.head? ≠ some '~'

/-- What the nearest file assigns can be set, and the root is in no named home. -/
structure Importable (site : Site) (files : List (Option (List Char))) : Prop where
  settable : ∀ text, files.findSome? id = some text →
    ∀ entry ∈ EnvFile.assigned site.environment (Newline.normalize text),
      EnvFile.Settable entry.1 entry.2
  own : ∀ spelling, (site.environment.get? rootVariable).or
    (site.fileValue files rootVariable) = some spelling →
      ¬(Path.ofString spelling).InNamedHome

/-- The root that is used beside a given one, whatever output is asked for. -/
def Uses (site : Site) (root : Option String) (base : Path) : Prop :=
  ∀ output, site.resolve (Path.given? root) output =
    .ok (base, output.getD (base.child typesFileName))

structure Loaded (site : Site) (files : List (Option (List Char))) (after : Site) : Prop where
  loaded : site.loadNearest files = .ok after
  repository : after.repository = site.repository
  holds : ∀ name, after.environment.get? name =
    (site.environment.get? name).or (site.fileValue files name)

theorem exists_loaded (enabled : site.environment.get? EnvFile.disablingVariable = none)
    (importable : site.Importable files) : ∃ after, site.Loaded files after := by
  cases nearest : files.findSome? id with
  | none =>
      refine ⟨site, ?_, rfl, fun name => ?_⟩
      · rw [loadNearest, nearest]
      · rw [fileValue, nearest, Option.bind_none, Option.or_none]
  | some text =>
      obtain ⟨environment, extended, holds⟩ :=
        EnvFile.load_eq_ok enabled
          fun entry member _ => importable.settable text nearest entry member
      refine ⟨{ site with environment }, ?_, rfl, fun name => ?_⟩
      · simp only [loadNearest, nearest, extended]
      · rw [fileValue, nearest, Option.bind_some]
        exact holds name

theorem Loaded.kept (loaded : site.Loaded files after) {name value : String}
    (held : site.environment.get? name = some value) :
    after.environment.get? name = some value := by
  rw [loaded.holds, held, Option.some_or]

theorem uses_given {explicit : String} (nonempty : explicit ≠ "") :
    after.Uses (some explicit) (Path.ofString explicit) := by
  intro output
  rw [Path.given?_of_ne_empty nonempty]
  rfl

theorem uses_of_defaultRoot {root : Option String} {base : Path}
    (absent : root = none ∨ root = some "") (found : after.defaultRoot = .ok base) :
    after.Uses root base := by
  have noPath : Path.given? root = none := by rcases absent with rfl | rfl <;> rfl
  intro output
  simp only [noPath, resolve, found, Except.map]

theorem defaultRoot_of_variable {spelling : String}
    (held : after.environment.get? rootVariable = some spelling) (nonempty : spelling ≠ "")
    (atHome : after.environment.get? "HOME" = some home)
    (plain : home.toList.head? ≠ some '~') (own : ¬(Path.ofString spelling).InNamedHome) :
    after.defaultRoot = .ok ((Path.ofString spelling).inHome home) := by
  unfold defaultRoot
  split
  next none => cases held.symm.trans none
  next empty => exact absurd (Option.some.inj (held.symm.trans empty)) nonempty
  next root _ found =>
    obtain rfl := Option.some.inj (held.symm.trans found)
    rw [atHome, Path.expandHome_eq_inHome plain own]

theorem defaultRoot_of_no_variable
    (absent : after.environment.get? rootVariable = none ∨
      after.environment.get? rootVariable = some "") :
    after.defaultRoot = .ok after.repository := by
  rcases absent with none | empty
  · simp only [defaultRoot, none]
  · simp only [defaultRoot, empty]

theorem Loaded.uses_variable (loaded : site.Loaded files after) (usual : site.Usual home)
    (importable : site.Importable files) {root : Option String} {spelling : String}
    (absent : root = none ∨ root = some "")
    (held : after.environment.get? rootVariable = some spelling) (nonempty : spelling ≠ "") :
    after.Uses root ((Path.ofString spelling).inHome home) := by
  have atHome := loaded.kept usual.atHome
  have own := importable.own spelling (loaded.holds rootVariable ▸ held)
  exact uses_of_defaultRoot absent
    (defaultRoot_of_variable held nonempty atHome usual.plain own)

theorem Loaded.uses_repository (loaded : site.Loaded files after) {root : Option String}
    (absent : root = none ∨ root = some "")
    (noVariable : after.environment.get? rootVariable = none ∨
      after.environment.get? rootVariable = some "") :
    after.Uses root site.repository :=
  loaded.repository ▸ uses_of_defaultRoot absent (defaultRoot_of_no_variable noVariable)

/-! Two runs that start alike and find other files. -/

theorem Loaded.eq_of_nearest (loaded : site.Loaded files after)
    (loadedOther : site.Loaded others other)
    (sameNearest : others.findSome? id = files.findSome? id) : other = after := by
  have same : site.loadNearest others = site.loadNearest files := by
    rw [loadNearest, loadNearest, sameNearest]
  rw [loaded.loaded, loadedOther.loaded] at same
  exact Except.ok.inj same

theorem resolve_congr (sameRepository : other.repository = after.repository)
    (sameRoot : other.environment.get? rootVariable = after.environment.get? rootVariable)
    (sameHome : other.environment.get? "HOME" = after.environment.get? "HOME")
    (root output : Option Path) : other.resolve root output = after.resolve root output := by
  simp only [resolve, defaultRoot, sameRepository, sameRoot, sameHome]

theorem Loaded.resolve_eq (loaded : site.Loaded files after)
    (loadedOther : site.Loaded others other) (usual : site.Usual home)
    (held : (site.environment.get? rootVariable).isSome) (root output : Option Path) :
    other.resolve root output = after.resolve root output := by
  obtain ⟨value, held⟩ := Option.isSome_iff_exists.mp held
  have sameRoot := (loadedOther.kept held).trans (loaded.kept held).symm
  have sameHome := (loadedOther.kept usual.atHome).trans (loaded.kept usual.atHome).symm
  exact resolve_congr (loadedOther.repository.trans loaded.repository.symm) sameRoot sameHome
    root output

/-- Where the root comes from after environment files are loaded: a root that is given,
as it is spelled; else the variable, which keeps what it held before and else holds what
the nearest file alone assigns; else the repository. Other files than the nearest change
nothing, and no file does where the variable was held before or a root is given. -/
theorem root_precedence (usual : site.Usual home) (importable : site.Importable files) :
    ∃ after, site.loadNearest files = .ok after ∧
      (∀ value, site.environment.get? rootVariable = some value →
        after.environment.get? rootVariable = some value) ∧
      (site.environment.get? rootVariable = none →
        after.environment.get? rootVariable = site.fileValue files rootVariable) ∧
      (∀ explicit, explicit ≠ "" → after.Uses (some explicit) (.ofString explicit)) ∧
      (∀ root, root = none ∨ root = some "" →
        (∀ spelling, after.environment.get? rootVariable = some spelling → spelling ≠ "" →
          after.Uses root ((Path.ofString spelling).inHome home)) ∧
        (after.environment.get? rootVariable = none ∨
          after.environment.get? rootVariable = some "" →
            after.Uses root site.repository)) ∧
      ∀ others, site.Importable others → ∃ other, site.loadNearest others = .ok other ∧
        (others.findSome? id = files.findSome? id → other = after) ∧
        ((site.environment.get? rootVariable).isSome →
          ∀ root output, other.resolve root output = after.resolve root output) ∧
        ∀ explicit, explicit ≠ "" → ∀ output,
          other.resolve (Path.given? (some explicit)) output =
            after.resolve (Path.given? (some explicit)) output := by
  obtain ⟨after, loaded⟩ := exists_loaded usual.enabled importable
  refine ⟨after, loaded.loaded, fun value => loaded.kept, ?fromFile,
    fun explicit => uses_given, ?notGiven, ?otherFiles⟩
  case fromFile =>
    intro absent
    rw [loaded.holds, absent, Option.none_or]
  case notGiven =>
    intro root absent
    exact ⟨fun spelling => loaded.uses_variable usual importable absent,
      loaded.uses_repository absent⟩
  case otherFiles =>
    intro others importableOthers
    obtain ⟨other, loadedOther⟩ := exists_loaded usual.enabled importableOthers
    refine ⟨other, loadedOther.loaded, loaded.eq_of_nearest loadedOther,
      loaded.resolve_eq loadedOther usual, ?_⟩
    intro explicit nonempty output
    rw [uses_given nonempty, uses_given nonempty]

def sampleFiles (farthest : String) : List (Option (List Char)) :=
  [none, some "TYPES_ROOT=~/types".toList, some farthest.toList]

def sampleHome : Site := ⟨[("HOME", "/home/user/")], ⟨.root, ["repository"]⟩⟩

theorem assigned_sampleText : EnvFile.assigned sampleHome.environment
    (Newline.normalize "TYPES_ROOT=~/types".toList) = [("TYPES_ROOT", some "~/types")] :=
  rfl

theorem nearest_sampleFiles (farthest : String) :
    (sampleFiles farthest).findSome? id = some "TYPES_ROOT=~/types".toList :=
  rfl

theorem fileValue_sampleFiles (farthest : String) :
    sampleHome.fileValue (sampleFiles farthest) rootVariable = some "~/types" := by
  rw [fileValue, nearest_sampleFiles, Option.bind_some, assigned_sampleText]
  rfl

theorem importable_sampleFiles (farthest : String) :
    sampleHome.Importable (sampleFiles farthest) where
  settable := by
    intro text nearest
    rw [nearest_sampleFiles] at nearest
    obtain rfl := Option.some.inj nearest
    rw [assigned_sampleText, List.forall_mem_singleton]
    refine ⟨by decide, by decide, ?_⟩
    rintro value ⟨⟩
    decide
  own := by
    rintro spelling held ⟨first, names, inHome, _, named⟩
    have absent : sampleHome.environment.get? rootVariable = none := by decide
    rw [absent, Option.none_or, fileValue_sampleFiles] at held
    obtain rfl := Option.some.inj held
    have spelled : Path.ofString "~/types" = ⟨.relative, ["~", "types"]⟩ := by decide
    rw [spelled] at inHome
    cases inHome
    exact named rfl

theorem root_precedence_sampleFiles :
    ∃ after other, sampleHome.loadNearest (sampleFiles "TYPES_ROOT=/first") = .ok after ∧
      sampleHome.loadNearest (sampleFiles "TYPES_ROOT=/second") = .ok other ∧
      other = after ∧
      after.environment.get? rootVariable = some "~/types" ∧
      after.Uses none ⟨.root, ["home", "user", "types"]⟩ ∧
      after.Uses (some "~/given") ⟨.relative, ["~", "given"]⟩ := by
  have usual : sampleHome.Usual "/home/user/" := ⟨by decide, by decide, by decide⟩
  have absent : sampleHome.environment.get? rootVariable = none := by decide
  obtain ⟨after, loaded, _, fromFile, given, notGiven, twoRuns⟩ :=
    root_precedence usual (importable_sampleFiles "TYPES_ROOT=/first")
  obtain ⟨other, loadedOther, sameNearest, _⟩ :=
    twoRuns _ (importable_sampleFiles "TYPES_ROOT=/second")
  have held := (fromFile absent).trans (fileValue_sampleFiles _)
  have same := sameNearest ((nearest_sampleFiles _).trans (nearest_sampleFiles _).symm)
  refine ⟨after, other, loaded, loadedOther, same, held, ?_, ?_⟩
  · have inHome : (Path.ofString "~/types").inHome "/home/user/" =
        ⟨.root, ["home", "user", "types"]⟩ := by decide
    exact inHome ▸ (notGiven none (Or.inl rfl)).1 "~/types" held (by decide)
  · have literal : Path.ofString "~/given" = ⟨.relative, ["~", "given"]⟩ := by decide
    exact literal ▸ given "~/given" (by decide)

end Site

end PalletTypes

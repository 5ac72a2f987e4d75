import PalletTypes.Proofs.Aggregation.Content
import PalletTypes.Proofs.Aggregation.FailFast
import PalletTypes.Proofs.FileTree.Denied

/-!
Which failures the steps of aggregation come to, and which of them are not reported: a
whole number that is too long or nesting that is too deep where types are read, and a
double that is not finite where they are written.
-/

namespace PalletTypes

open Json

theorem isReported_ofAccess {fault : AccessFault} (denied : fault.IsDenied) :
    (Failure.ofAccess fault).isReported = true := by
  obtain ⟨denial, path, rfl⟩ := denied
  rfl

/-- Types that are not read although their file can be. -/
def Failure.IsUnread (failure : Failure) : Prop :=
  failure = .deepNesting ∨ ∃ digits, failure = .longInteger digits

theorem failure_of_decodeTypes {path : Path} {content : Bytes} {failure : Failure}
    (failed : decodeTypes path content = .error failure) :
    failure.isReported = true ∨ failure.IsUnread := by
  revert failed
  fun_cases decodeTypes path content with
  | case1 | case2 | case3 | case7 =>
      intro failed
      cases failed
      exact Or.inl rfl
  | case4 text digits =>
      intro failed
      cases failed
      exact Or.inr (Or.inr ⟨_, rfl⟩)
  | case5 =>
      intro failed
      cases failed
      exact Or.inr (Or.inl rfl)
  | case6 =>
      intro failed
      cases failed

/-- A file may hold no more than a whole number, which is refused for its length before
it is seen to be no object. -/
theorem decodeTypes_of_longInteger (path : Path) {digits : List Char}
    (isWhole : Grammar.Whole digits) (long : NumberLiteral.digitLimit < digits.length) :
    decodeTypes path (Utf8.encode digits) = .error (.longInteger digits.length) := by
  have noReturn : '\r' ∉ digits := fun inside =>
    absurd (Grammar.isDigit_of_mem_whole isWhole '\r' inside) (by decide)
  have spelled : Grammar.Number digits ⟨false, digits, [], none⟩ := by
    simpa using Grammar.Number.parts .absent isWhole .absent .absent
  have failed : NumberLiteral.value ⟨false, digits, [], none⟩ =
      .error (.longInteger digits.length) := by
    simp only [NumberLiteral.value, if_pos long]
  simp only [decodeTypes, Utf8.decode_encode, Newline.normalize_eq_self noReturn,
    read_of_number_fault .strict spelled failed]

theorem encodeTypes_eq_notFinite_iff {value : Value} {kind : NonFinite} :
    encodeTypes value = .error (.notFinite kind) ↔
      value.floats.findSome? Binary64.nonFinite? = some kind := by
  unfold encodeTypes Value.render
  cases first : value.floats.findSome? Binary64.nonFinite? with
  | none =>
      simp only [mapError_eq_error_iff, reduceCtorEq, and_false, exists_false]
  | some other => simp

theorem failure_of_encodeTypes {value : Value} {failure : Failure}
    (failed : encodeTypes value = .error failure) :
    failure.isReported = true ∨ ∃ kind, failure = .notFinite kind := by
  unfold encodeTypes at failed
  split at failed
  · cases failed
    exact Or.inr ⟨_, rfl⟩
  · obtain ⟨run, _, rfl⟩ := mapError_eq_error_iff.mp failed
    exact Or.inl rfl

namespace Workspace

variable {workspace : Workspace} {site : Site} {request : Request} {failure : Failure}

theorem failure_of_loadTypes {path : Path} (nullFree : path.NullFree)
    (failed : workspace.loadTypes path = .error failure) :
    failure.isReported = true ∨ failure.IsUnread := by
  unfold loadTypes at failed
  split at failed
  · rename_i refused
    cases failed
    exact Or.inl (isReported_ofAccess (isDenied_of_readFile nullFree refused))
  · exact failure_of_decodeTypes failed

/-- The first of the listed files that cannot be loaded is refused with the failure. -/
def RefusesFirst (workspace : Workspace) (directory : Path) (pallets : List String)
    (failure : Failure) : Prop :=
  ∃ before pallet later layers, pallets = before ++ pallet :: later ∧
    workspace.Loads (before.map (typesPath directory)) layers ∧
    workspace.loadTypes (typesPath directory pallet) = .error failure

theorem collectTypes_eq_error_iff (seeds : Seeds) {directory : Path}
    {pallets : List String} :
    (workspace.collectTypes seeds directory pallets).result = .error failure ↔
      workspace.RefusesFirst directory pallets failure := by
  constructor
  · intro failed
    by_cases refused : ∃ pallet ∈ pallets, ∃ failure,
        workspace.loadTypes (typesPath directory pallet) = .error failure
    · obtain ⟨before, pallet, later, layers, first, rfl, loaded, refused⟩ :=
        exists_first_failing refused
      rw [collectTypes_of_failing loaded refused] at failed
      cases failed
      exact ⟨before, pallet, later, layers, rfl, loaded, refused⟩
    · have all : ∀ path ∈ pallets.map (typesPath directory),
          ∃ layer, workspace.loadTypes path = .ok layer := by
        refine List.forall_mem_map.mpr fun pallet member => ?_
        cases loaded : workspace.loadTypes (typesPath directory pallet) with
        | ok layer => exact ⟨layer, rfl⟩
        | error failure => exact absurd ⟨pallet, member, failure, loaded⟩ refused
      obtain ⟨layers, loaded⟩ := exists_loads all
      rw [collectTypes_of_loads loaded] at failed
      cases failed
  · rintro ⟨before, pallet, later, layers, rfl, loaded, refused⟩
    rw [collectTypes_of_failing loaded refused]

theorem failure_of_refusesFirst {directory : Path} {pallets : List String}
    (nullFree : directory.NullFree) (names : ∀ pallet ∈ pallets, '\x00' ∉ pallet.toList)
    (refuses : workspace.RefusesFirst directory pallets failure) :
    failure.isReported = true ∨ failure.IsUnread := by
  obtain ⟨before, pallet, later, layers, rfl, _, refused⟩ := refuses
  have clean : '\x00' ∉ pallet.toList :=
    names pallet (List.mem_append_right before List.mem_cons_self)
  exact failure_of_loadTypes ((nullFree.child clean).child (by decide)) refused

theorem plan_eq_error_iff {root output : Path}
    (resolved : site.resolve request.root request.output = .ok (root, output)) :
    (workspace.plan site request).result = .error failure ↔
      workspace.RefusesFirst (root.child palletsDirectoryName) request.pallets failure ∨
        ∃ types, (workspace.collectTypes request.seeds (root.child palletsDirectoryName)
            request.pallets).result = .ok types ∧
          encodeTypes (.object types) = .error failure := by
  rw [← collectTypes_eq_error_iff request.seeds]
  simp only [plan, resolved]
  cases collected : (workspace.collectTypes request.seeds
      (root.child palletsDirectoryName) request.pallets).result with
  | error other => simp
  | ok types => simp [map_eq_error_iff]

theorem check_eq_error (failed : (workspace.check site request).result = .error failure) :
    (workspace.plan site request).result = .error failure ∨
      ∃ plan fault, (workspace.plan site request).result = .ok plan ∧
        failure = .ofAccess fault ∧
        (workspace.pathExists plan.output = .error fault ∨
          workspace.readFile plan.output = .error fault) := by
  simp only [check] at failed
  split at failed
  · rename_i planned
    cases failed
    exact Or.inl planned
  · rename_i plan planned
    refine Or.inr ⟨plan, ?_⟩
    split at failed
    · rename_i fault refused
      exact ⟨fault, planned, (Except.error.inj failed).symm, Or.inl refused⟩
    · cases failed
    · split at failed
      · rename_i fault refused
        exact ⟨fault, planned, (Except.error.inj failed).symm, Or.inr refused⟩
      · split at failed <;> cases failed

theorem aggregate_eq_error
    (failed : (workspace.aggregate site request).result = .error failure) :
    (workspace.plan site request).result = .error failure ∨
      ∃ plan fault, (workspace.plan site request).result = .ok plan ∧
        failure = .ofAccess fault ∧
        ((workspace.ensureDirectories levelLimit plan.output.parent).2 = .error fault ∨
          ∃ made : Workspace, made.writeFile plan.output plan.content = .error fault) := by
  cases planned : (workspace.plan site request).result with
  | error other =>
      simp only [aggregate, planned, Except.error.injEq] at failed
      exact Or.inl (congrArg Except.error failed)
  | ok plan =>
      refine Or.inr ⟨plan, ?_⟩
      cases ensured : workspace.ensureDirectories levelLimit plan.output.parent with
      | mk made result =>
          cases result with
          | error fault =>
              simp only [aggregate, planned, ensured, Except.error.injEq] at failed
              exact ⟨fault, rfl, failed.symm, Or.inl rfl⟩
          | ok =>
              cases written : made.writeFile plan.output plan.content with
              | error fault =>
                  simp only [aggregate, planned, ensured, written, Except.error.injEq]
                    at failed
                  exact ⟨fault, rfl, failed.symm, Or.inr ⟨made, written⟩⟩
              | ok after => simp only [aggregate, planned, ensured, written, reduceCtorEq] at failed

end Workspace

end PalletTypes

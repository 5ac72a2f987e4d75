import PalletTypes.Proofs.FileTree.Ancestors
import PalletTypes.Proofs.Path

/-!
Why access fails when no name of a path holds a null character: the path is denied, or
too many directories are missing on the way to it.
-/

namespace PalletTypes

def AccessFault.IsDenied (fault : AccessFault) : Prop :=
  ∃ denial path, fault = .denied denial path

namespace Workspace

variable {workspace : Workspace} {path : Path} {fault : AccessFault}

theorem isDenied_of_locate (nullFree : path.NullFree)
    (failed : workspace.locate path = .error fault) : fault.IsDenied := by
  unfold locate at failed
  split at failed
  · rename_i nullByte
    simp only [List.any_eq_true, decide_eq_true_eq] at nullByte
    obtain ⟨name, member, held⟩ := nullByte
    exact absurd held (nullFree name member)
  · split at failed
    · cases failed
      exact ⟨_, _, rfl⟩
    · cases walked : workspace.tree.walk (workspace.start path) path.names with
      | ok location =>
          rw [walked] at failed
          cases failed
      | error denial =>
          rw [walked] at failed
          cases failed
          exact ⟨_, _, rfl⟩

theorem isDenied_of_entry? (nullFree : path.NullFree)
    (failed : workspace.entry? path = .error fault) : fault.IsDenied := by
  unfold entry? at failed
  cases located : workspace.locate path with
  | error other =>
      rw [located] at failed
      cases failed
      exact isDenied_of_locate nullFree located
  | ok location =>
      rw [located] at failed
      cases failed

theorem isDenied_of_readFile (nullFree : path.NullFree)
    (failed : workspace.readFile path = .error fault) : fault.IsDenied := by
  unfold readFile at failed
  split at failed
  · rename_i found
    cases failed
    exact isDenied_of_entry? nullFree found
  · cases failed
    exact ⟨_, _, rfl⟩
  · cases failed
    exact ⟨_, _, rfl⟩
  · cases failed

theorem isDenied_of_pathExists
    (failed : workspace.pathExists path = .error fault) : fault.IsDenied := by
  unfold pathExists at failed
  split at failed
  · cases failed
  · cases failed
    exact ⟨_, _, rfl⟩
  · cases failed

theorem isDenied_of_put {location : Location} {entry : Entry}
    {free : workspace.tree.entry? location ≠ some .directory}
    (failed : workspace.put path location entry free = .error fault) :
    fault.IsDenied := by
  unfold put at failed
  split at failed
  · cases failed
    exact ⟨_, _, rfl⟩
  · split at failed
    · cases failed
    · cases failed
      exact ⟨_, _, rfl⟩

theorem isDenied_of_writeFile (nullFree : path.NullFree) {content : Bytes}
    (failed : workspace.writeFile path content = .error fault) : fault.IsDenied := by
  unfold writeFile at failed
  split at failed
  · rename_i found
    cases failed
    exact isDenied_of_locate nullFree found
  · split at failed
    · cases failed
      exact ⟨_, _, rfl⟩
    · exact isDenied_of_put failed

theorem isDenied_of_makeDirectory (nullFree : path.NullFree)
    (failed : workspace.makeDirectory path = .error fault) : fault.IsDenied := by
  unfold makeDirectory at failed
  split at failed
  · rename_i found
    cases failed
    exact isDenied_of_locate nullFree found
  · split at failed
    · exact isDenied_of_put failed
    · cases failed
      exact ⟨_, _, rfl⟩

theorem isDenied_of_ensureDirectory (nullFree : path.NullFree)
    (failed : workspace.ensureDirectory path = .error fault) : fault.IsDenied := by
  unfold ensureDirectory at failed
  split at failed
  · cases failed
  · rename_i tried
    split at failed
    · cases failed
    · cases failed
      exact isDenied_of_makeDirectory nullFree tried

theorem isDenied_of_ensureDirectories (nullFree : path.NullFree) {levels : Nat}
    (failed : (workspace.ensureDirectories levels path).2 = .error fault) :
    fault.IsDenied ∨ fault = .deepNesting := by
  fun_induction ensureDirectories workspace levels path with
  | case1 =>
      cases failed
      exact Or.inr rfl
  | case2 | case5 => cases failed
  | case3 =>
      cases failed
      exact Or.inl ⟨_, _, rfl⟩
  | case4 levels path missing tried named after other upper induction =>
      rw [upper] at induction
      exact induction nullFree.parent failed
  | case6 levels path missing tried named middle upper other refused induction =>
      cases failed
      exact Or.inl (isDenied_of_ensureDirectory nullFree refused)
  | case7 levels path other notMissing refused =>
      cases failed
      exact Or.inl (isDenied_of_ensureDirectory nullFree refused)

end Workspace

end PalletTypes

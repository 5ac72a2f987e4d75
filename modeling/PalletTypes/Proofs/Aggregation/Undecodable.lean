import PalletTypes.Proofs.Aggregation.Steps
import PalletTypes.Proofs.Text.Refused

/-!
Which types files are refused as not UTF-8, from what place on and why.
-/

namespace PalletTypes

theorem decodeTypes_eq_notUtf8_iff {path other : Path} {content : Bytes}
    {fault : Utf8.Fault} :
    decodeTypes path content = .error (.notUtf8 other fault) ↔
      other = path ∧ Utf8.decode content = .error fault := by
  unfold decodeTypes
  cases decoded : Utf8.decode content with
  | error found =>
      simp only [Except.error.injEq, Failure.notUtf8.injEq]
      exact and_congr_left' eq_comm
  | ok characters =>
      simp only [reduceCtorEq, and_false, iff_false]
      cases Json.read .strict (Newline.normalize characters) with
      | error fault => cases fault <;> simp
      | ok value => cases value <;> simp

namespace Workspace

variable {workspace : Workspace} {path other : Path} {fault : Utf8.Fault}

theorem loadTypes_eq_notUtf8_iff_decode :
    workspace.loadTypes path = .error (.notUtf8 other fault) ↔
      other = path ∧ ∃ content, workspace.readFile path = .ok content ∧
        Utf8.decode content = .error fault := by
  unfold loadTypes
  cases workspace.readFile path with
  | error refused => cases refused <;> simp [Failure.ofAccess]
  | ok content => simp [decodeTypes_eq_notUtf8_iff]

/-- A file is refused as not UTF-8 exactly if it holds the form of no text. What is told is
where the longest text ends that it holds at its start, which part of the rest is refused,
and why: the rest may be cut short within a character, or its first byte may begin none. -/
theorem loadTypes_eq_notUtf8_iff (workspace : Workspace) (path : Path) :
    ((∃ fault, workspace.loadTypes path = .error (.notUtf8 path fault)) ↔
        ∃ content, workspace.readFile path = .ok content ∧
          ∀ text, content ≠ Utf8.encode text) ∧
      ∀ other fault, workspace.loadTypes path = .error (.notUtf8 other fault) ↔
        other = path ∧ ∃ content, workspace.readFile path = .ok content ∧
          ∃ text rest, Utf8.Refuses content fault text rest := by
  constructor
  · constructor
    · rintro ⟨fault, refused⟩
      obtain ⟨_, content, held, failed⟩ := loadTypes_eq_notUtf8_iff_decode.mp refused
      refine ⟨content, held, ?_⟩
      rintro text rfl
      rw [Utf8.decode_encode] at failed
      cases failed
    · rintro ⟨content, held, noText⟩
      cases decoded : Utf8.decode content with
      | ok text => exact absurd (Utf8.decode_eq_ok_iff.mp decoded) (noText text)
      | error fault =>
          exact ⟨fault, loadTypes_eq_notUtf8_iff_decode.mpr ⟨rfl, content, held, decoded⟩⟩
  · intro other fault
    simp only [loadTypes_eq_notUtf8_iff_decode, Utf8.decode_eq_error_iff]

end Workspace

end PalletTypes

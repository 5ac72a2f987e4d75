import PalletTypes.Proofs.Aggregation.Content
import PalletTypes.Proofs.Aggregation.Steps

/-!
Types that are written to a file are loaded from it as they were.
-/

namespace PalletTypes

open Json

/-- Types are written whenever they nest no deeper than is read, hold no whole number
too long to be read, no double that is not finite and no surrogate; and a file that
holds what was written is loaded as the same types, in the same order. -/
theorem loadTypes_encodeTypes {types : Members}
    (readable : (Value.object types).Readable depthLimit)
    (writable : (Value.object types).Writable) :
    ∃ content, encodeTypes (.object types) = .ok content ∧
      ∀ (workspace : Workspace) (path : Path),
        workspace.readFile path = .ok content →
          workspace.loadTypes path = .ok types := by
  obtain ⟨content, encoded⟩ : ∃ content, encodeTypes (.object types) = .ok content :=
    ⟨_, encodeTypes_eq_ok_iff.mpr ⟨writable, rfl⟩⟩
  refine ⟨content, encoded, ?_⟩
  intro workspace path held
  apply Workspace.loadTypes_eq_ok_iff.mpr
  exact ⟨content, held, decodeTypes_of_encodeTypes readable encoded path⟩

/-- A type with a name to be escaped, a negative whole number, a negative zero, the
least double above zero, and empty and nested containers. -/
def sampleTypes : Members :=
  [(Text.ofChars ['"', '\\', '\n', '\u00e9'],
      .array [.integer (-120), .float (.zero true),
        .float (.ofRank false 1), .array [], .object []]),
    ([], .object [(Text.ofChars ['k'], .null), (Text.ofChars ['\u0001'], .bool true)])]

theorem loadTypes_encodeTypes_sampleTypes :
    (Value.object sampleTypes).Readable depthLimit ∧
      (Value.object sampleTypes).Writable ∧
      ∃ content, encodeTypes (.object sampleTypes) = .ok content ∧
        ∀ (workspace : Workspace) (path : Path),
          workspace.readFile path = .ok content →
            workspace.loadTypes path = .ok sampleTypes := by
  have short : (Decimal.toDigits 120).length ≤ NumberLiteral.digitLimit := by decide
  have readable : (Value.object sampleTypes).Readable depthLimit := by
    simp [sampleTypes, depthLimit, Value.Readable, Ordered.keys, Text.ofChars, short]
  have writable : (Value.object sampleTypes).Writable := by
    constructor
    · simp [sampleTypes, Value.floats, floatsOfItems, floatsOfMembers, Binary64.zero,
        Binary64.ofRank, Binary64.nonFinite?]
    · simp [sampleTypes, Value.content, Value.contentOfItems, Value.contentOfMembers]
  exact ⟨readable, writable, loadTypes_encodeTypes readable writable⟩

end PalletTypes

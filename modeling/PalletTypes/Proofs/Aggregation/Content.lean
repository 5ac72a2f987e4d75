import PalletTypes.Aggregation
import PalletTypes.Proofs.Except
import PalletTypes.Proofs.Json.Derivation
import PalletTypes.Proofs.Json.Soundness
import PalletTypes.Proofs.Text.Newline
import PalletTypes.Proofs.Text.Utf8

/-!
The content of types files: what can be written, what can be read, and that what
is written is read as it was.
-/

namespace PalletTypes

open Json

theorem render_eq_ok_iff {value : Value} {text : Text} :
    value.render = .ok text ↔
      (∀ float ∈ value.floats, float.nonFinite? = none) ∧ text = value.layout 0 := by
  unfold Value.render
  cases first : value.floats.findSome? Binary64.nonFinite? with
  | none =>
      constructor
      · intro rendered
        exact ⟨List.findSome?_eq_none_iff.mp first, (Except.ok.inj rendered).symm⟩
      · rintro ⟨_, rfl⟩
        rfl
  | some kind =>
      simp only [reduceCtorEq, false_iff, not_and]
      intro finite
      rw [List.findSome?_eq_none_iff.mpr finite] at first
      cases first

theorem encodeTypes_eq_ok_iff {value : Value} {content : Bytes} :
    encodeTypes value = .ok content ↔
      value.Writable ∧ content = Utf8.encode (value.layout 0).characters := by
  unfold encodeTypes
  cases rendered : value.render with
  | error kind =>
      simp only [reduceCtorEq, false_iff, not_and]
      intro writable
      rw [render_eq_ok_iff.mpr ⟨writable.finite, rfl⟩] at rendered
      cases rendered
  | ok text =>
      obtain ⟨finite, rfl⟩ := render_eq_ok_iff.mp rendered
      simp only [mapError_eq_ok_iff, Text.encode_eq_ok_iff, noSurrogates_layout]
      constructor
      · rintro ⟨clean, written⟩
        exact ⟨⟨finite, clean⟩, written⟩
      · rintro ⟨writable, written⟩
        exact ⟨writable.scalar, written⟩

theorem decodeTypes_eq_ok_iff {path : Path} {content : Bytes} {types : Members} :
    decodeTypes path content = .ok types ↔
      ∃ characters, Utf8.decode content = .ok characters ∧
        Grammar.Document depthLimit (Newline.normalize characters) (.object types) := by
  unfold decodeTypes
  cases decoded : Utf8.decode content with
  | error fault => simp
  | ok characters =>
      simp only [Except.ok.injEq, exists_eq_left', ← read_strict_eq_ok_iff]
      cases read .strict (Newline.normalize characters) with
      | error fault => cases fault <;> simp
      | ok value => cases value <;> simp

theorem readable_of_decodeTypes {path : Path} {content : Bytes} {types : Members}
    (decoded : decodeTypes path content = .ok types) :
    (Value.object types).Readable depthLimit := by
  obtain ⟨characters, _, document⟩ := decodeTypes_eq_ok_iff.mp decoded
  exact readable_of_document document

theorem document_layout {value : Value} (readable : value.Readable depthLimit)
    (writable : value.Writable) :
    Grammar.Document depthLimit (value.layout 0).characters value := by
  have document := Grammar.Document.spaced Grammar.gap_nil
    (denotes_layout depthLimit 0 value readable writable) Grammar.gap_nil
  rwa [List.nil_append, List.append_nil] at document

theorem decodeTypes_of_encodeTypes {types : Members} {content : Bytes}
    (readable : (Value.object types).Readable depthLimit)
    (encoded : encodeTypes (.object types) = .ok content) (path : Path) :
    decodeTypes path content = .ok types := by
  obtain ⟨writable, rfl⟩ := encodeTypes_eq_ok_iff.mp encoded
  refine decodeTypes_eq_ok_iff.mpr ⟨_, Utf8.decode_encode _, ?_⟩
  rw [Newline.normalize_eq_self (no_return_in_layout 0 _)]
  exact document_layout readable writable

end PalletTypes

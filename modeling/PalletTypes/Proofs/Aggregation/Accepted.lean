import PalletTypes.Proofs.Aggregation.Content
import PalletTypes.Proofs.Aggregation.Steps
import PalletTypes.Proofs.Json.LineEnds
import PalletTypes.Proofs.Json.Spelling
import PalletTypes.Proofs.Text.WellFormed

/-!
Which types files are loaded, and as what.
-/

namespace PalletTypes

open Json

/-- The text is an object with white space around it, and denotes the members. -/
def Json.Grammar.ObjectText (text : List Char) (members : Members) : Prop :=
  ∃ depth, Document depth text (.object members)

theorem document_normalize_iff {text : List Char} {value : Value} :
    Grammar.Document depthLimit (Newline.normalize text) value ↔
      Grammar.Document depthLimit text value := by
  rw [← read_strict_eq_ok_iff, ← read_strict_eq_ok_iff, read_normalize, mapError_eq_ok_iff]

theorem head?_ne_of_document {text : List Char} {value : Value}
    (document : Grammar.Document depthLimit text value) : text.head? ≠ some '\uFEFF' := by
  intro marked
  have result := read_strict_eq_ok_iff.mpr document
  cases text with
  | nil => cases marked
  | cons first rest =>
      cases marked
      cases result

theorem Workspace.loadTypes_eq_ok_iff_document {workspace : Workspace} {path : Path}
    {text : List Char} {types : Members}
    (holds : workspace.readFile path = .ok (Utf8.encode text)) :
    workspace.loadTypes path = .ok types ↔
      Grammar.Document depthLimit text (.object types) := by
  simp only [loadTypes, holds, decodeTypes_eq_ok_iff, Utf8.decode_encode,
    Except.ok.injEq, exists_eq_left', document_normalize_iff]

/-- A file is loaded exactly if it holds the UTF-8 form of a text without a byte order
mark that the grammar derives as an object, and that nests no deeper than is read; it is
loaded as what the grammar says the text denotes. -/
theorem Workspace.loadTypes_eq_ok_iff_objectText {workspace : Workspace} {path : Path}
    {types : Members} :
    workspace.loadTypes path = .ok types ↔
      ∃ text, workspace.readFile path = .ok (Utf8.encode text) ∧
        text.head? ≠ some '\uFEFF' ∧ nesting text ≤ depthLimit ∧
          Grammar.ObjectText text types := by
  rw [loadTypes_eq_ok_iff]
  constructor
  · rintro ⟨content, held, loaded⟩
    obtain ⟨text, decoded, document⟩ := decodeTypes_eq_ok_iff.mp loaded
    obtain rfl := Utf8.decode_eq_ok_iff.mp decoded
    rw [document_normalize_iff] at document
    obtain ⟨derived, shallow⟩ := document_iff_nesting.mp document
    exact ⟨text, held, head?_ne_of_document document, shallow, derived⟩
  · rintro ⟨text, held, _, shallow, derived⟩
    have document := document_normalize_iff.mpr (document_iff_nesting.mpr ⟨derived, shallow⟩)
    exact ⟨_, held, decodeTypes_eq_ok_iff.mpr ⟨text, Utf8.decode_encode text, document⟩⟩

namespace Workspace

open Grammar

variable {workspace : Workspace} {path : Path} {spellings : List (List Char)}

abbrev MemberPairs : List (List Char) → List (Text × Value) → Prop :=
  List.Forall₂ (Member (Denotes (depthLimit - 1)))

/-- The file holds an object whose members are spelled so. -/
def HoldsObject (workspace : Workspace) (path : Path) (spellings : List (List Char)) : Prop :=
  ∃ text, workspace.readFile path = .ok (Utf8.encode text) ∧ ObjectOf spellings text

theorem holdsObject_of_separated {pairs : List (Text × Value)}
    (held : workspace.readFile path = .ok (Utf8.encode ('{' :: separated spellings)))
    (each : MemberPairs spellings pairs) : workspace.HoldsObject path spellings :=
  ⟨_, held, objectOf_separated each⟩

theorem HoldsObject.loadTypes {pairs : List (Text × Value)}
    (holds : workspace.HoldsObject path spellings) (each : MemberPairs spellings pairs) :
    workspace.loadTypes path = .ok (Ordered.putAll [] pairs) := by
  obtain ⟨text, held, isObject⟩ := holds
  exact (loadTypes_eq_ok_iff_document held).mpr (isObject.document each)

theorem HoldsObject.members {types : Members} (holds : workspace.HoldsObject path spellings)
    (loaded : workspace.loadTypes path = .ok types) :
    ∀ spelling ∈ spellings, ∃ pair, Member (Denotes (depthLimit - 1)) spelling pair := by
  obtain ⟨text, held, isObject⟩ := holds
  have document := (loadTypes_eq_ok_iff_document held).mp loaded
  exact isObject.members (document_iff_nesting.mp document).2

end Workspace

end PalletTypes

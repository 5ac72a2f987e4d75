import PalletTypes.Proofs.Aggregation.Content
import PalletTypes.Proofs.Json.LineEnds

/-!
Types files and line ends. The reader is given the text of a file with its line ends
turned; given the text as it stands, it comes to the same types or fails alike.
-/

namespace PalletTypes

open Json Newline

/-- Reads the text of a types file with the line ends that it has. -/
def typesOfText (path : Path) (text : List Char) : Except Failure Members :=
  match Json.read .strict text with
  | .error (.malformed complaint rest) =>
      .error (.malformed path complaint (.ofRest text rest))
  | .error (.bareWord kind _) => .error (.bareWord path kind)
  | .error (.longInteger digits) => .error (.longInteger digits)
  | .error .deepNesting => .error .deepNesting
  | .ok (.object members) => .ok members
  | .ok value => .error (.notObject path value.kind)

theorem decodeTypes_encode (path : Path) (text : List Char) :
    decodeTypes path (Utf8.encode text) = typesOfText path (normalize text) := by
  simp only [decodeTypes, Utf8.decode_encode]
  rfl

theorem typesOfText_eq_malformed_iff {path named : Path} {text : List Char}
    {complaint : Complaint} {position : Position} :
    typesOfText path text = .error (.malformed named complaint position) ↔
      named = path ∧ ∃ rest, Json.read .strict text = .error (.malformed complaint rest) ∧
        position = .ofRest text rest := by
  unfold typesOfText
  split
  case h_1 other rest failed =>
    simp only [failed, Except.error.injEq, Failure.malformed.injEq, Fault.malformed.injEq]
    constructor
    · rintro ⟨rfl, rfl, rfl⟩
      exact ⟨rfl, rest, ⟨rfl, rfl⟩, rfl⟩
    · rintro ⟨rfl, _, ⟨rfl, rfl⟩, rfl⟩
      exact ⟨rfl, rfl, rfl⟩
  all_goals simp [*]

theorem typesOfText_eq_bareWord_iff {path named : Path} {text : List Char}
    {kind : NonFinite} :
    typesOfText path text = .error (.bareWord named kind) ↔
      named = path ∧ ∃ rest, Json.read .strict text = .error (.bareWord kind rest) := by
  unfold typesOfText
  split
  case h_2 other rest failed =>
    simp only [failed, Except.error.injEq, Failure.bareWord.injEq, Fault.bareWord.injEq]
    constructor
    · rintro ⟨rfl, rfl⟩
      exact ⟨rfl, rest, rfl, rfl⟩
    · rintro ⟨rfl, _, rfl, rfl⟩
      exact ⟨rfl, rfl⟩
  all_goals simp [*]

/-- What comes of a text with its line ends turned, and of the text as it stands: the same
types, or the same failure but for the numbers that tell its place, and what is left of the
text at that place is the same but for its line ends. -/
inductive Alike (path : Path) (text : List Char) :
    Except Failure Members → Except Failure Members → Prop
  | loaded (types : Members) : Alike path text (.ok types) (.ok types)
  | malformed (complaint : Complaint) (rest : List Char) :
      Alike path text
        (.error (.malformed path complaint (.ofRest (normalize text) (normalize rest))))
        (.error (.malformed path complaint (.ofRest text rest)))
  | refused (failure : Failure) : Alike path text (.error failure) (.error failure)

theorem alike_typesOfText (path : Path) (text : List Char) :
    Alike path text (typesOfText path (normalize text)) (typesOfText path text) := by
  unfold typesOfText
  rw [read_normalize]
  cases Json.read .strict text with
  | error fault =>
      cases fault with
      | malformed complaint rest => exact .malformed complaint rest
      | bareWord | longInteger | deepNesting => exact .refused _
  | ok value =>
      cases value with
      | object members => exact .loaded members
      | _ => exact .refused _

theorem Alike.ok_iff {path : Path} {text : List Char} {first second : Except Failure Members}
    (alike : Alike path text first second) {types : Members} :
    first = .ok types ↔ second = .ok types := by
  cases alike with
  | loaded => exact Iff.rfl
  | malformed | refused => exact iff_of_false nofun nofun

/-- Turning the line ends of a file before it is read loses and changes no types: the reader
comes to the same ones without, and where it fails it fails alike. -/
theorem decodeTypes_alike_typesOfText (path : Path) (text : List Char) :
    (∀ types, decodeTypes path (Utf8.encode text) = .ok types ↔
        typesOfText path text = .ok types) ∧
      Alike path text (decodeTypes path (Utf8.encode text)) (typesOfText path text) := by
  have alike := alike_typesOfText path text
  rw [decodeTypes_encode]
  exact ⟨fun types => alike.ok_iff, alike⟩

end PalletTypes

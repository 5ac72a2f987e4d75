import Mathlib.Data.List.Basic
import PalletTypes.Proofs.Aggregation.LineEnds
import PalletTypes.Proofs.Aggregation.Result
import PalletTypes.Proofs.Json.Viable
import PalletTypes.Proofs.Text.WellFormed

/-!
The places that are told where a types file is not JSON. What the file holds before such a
place, with its line ends turned, begins the text of some value that is read.
-/

namespace PalletTypes

open Json Newline

namespace Json

/-- The last line feed of the text has the index. -/
def LastFeed (text : List Char) (index : Nat) : Prop :=
  ∃ before line, text = before ++ '\n' :: line ∧ before.length = index ∧ '\n' ∉ line

/-- The position lies in the text, on the line that the line feeds before it make, and as
far into that line as it is from the last of them. -/
structure Position.In (position : Position) (text : List Char) : Prop where
  offset : position.offset ≤ text.length
  line : position.line = 1 + (text.take position.offset).count '\n'
  column : ∀ index, LastFeed (text.take position.offset) index →
    position.column + index = position.offset
  firstLine : '\n' ∉ text.take position.offset → position.column = position.offset + 1

theorem Position.ofRest_append (before rest : List Char) :
    Position.ofRest (before ++ rest) rest =
      ⟨before.length, before.count '\n' + 1,
        (before.reverse.takeWhile fun character => character != '\n').length + 1⟩ := by
  simp [Position.ofRest]

theorem takeWhile_reverse_append (before : List Char) {line : List Char}
    (noFeed : '\n' ∉ line) :
    ((before ++ line).reverse.takeWhile fun character => character != '\n') =
      line.reverse ++ before.reverse.takeWhile fun character => character != '\n' := by
  have other : ∀ character ∈ line.reverse, (character != '\n') = true := by
    intro character member
    rw [bne_iff_ne]
    rintro rfl
    exact noFeed (List.mem_reverse.mp member)
  rw [List.reverse_append, List.takeWhile_append_of_pos other]

theorem Position.in_ofRest (before rest : List Char) :
    (Position.ofRest (before ++ rest) rest).In (before ++ rest) := by
  rw [Position.ofRest_append]
  constructor <;> simp only [List.take_left']
  · simp
  · exact Nat.add_comm _ 1
  · rintro _ ⟨left, line, rfl, rfl, noFeed⟩
    rw [List.append_cons, takeWhile_reverse_append _ noFeed]
    simp
    omega
  · intro noFeed
    have whole := takeWhile_reverse_append [] noFeed
    rw [List.nil_append] at whole
    simp [whole]

end Json

/-- The text before the place begins one that is read. -/
def SoundUpTo (text : List Char) (position : Position) : Prop :=
  position.In text ∧ Viable (Grammar.Document depthLimit) (text.take position.offset)

/-- The word stands in the text where a number may stand. -/
def MeetsWord (kind : NonFinite) (text : List Char) : Prop :=
  ∃ before after, text = before ++ (kind.word.toList ++ after) ∧
    Viable (Grammar.Document depthLimit) (before ++ ['0'])

theorem soundUpTo_of_read {text rest : List Char} {complaint : Complaint}
    (failed : Json.read .strict text = .error (.malformed complaint rest)) :
    SoundUpTo text (.ofRest text rest) := by
  cases read_breaksRightly failed with
  | @malformed before rest complaint viable =>
      refine ⟨Position.in_ofRest before rest, ?_⟩
      rw [Position.ofRest_append, List.take_left']
      · exact viable
      · rfl

theorem meetsWord_of_read {text rest : List Char} {kind : NonFinite}
    (failed : Json.read .strict text = .error (.bareWord kind rest)) :
    MeetsWord kind text := by
  cases read_breaksRightly failed with
  | @bareWord before after kind viable => exact ⟨before, after, rfl, viable⟩

theorem read_bareWord_of_normalize {text rest : List Char} {kind : NonFinite}
    (failed : Json.read .strict (normalize text) = .error (.bareWord kind rest)) :
    ∃ rest, Json.read .strict text = .error (.bareWord kind rest) := by
  rw [read_normalize] at failed
  obtain ⟨fault, found, turned⟩ := mapError_eq_error_iff.mp failed
  cases fault with
  | bareWord other rest =>
      cases turned
      exact ⟨rest, found⟩
  | malformed | longInteger | deepNesting => cases turned

namespace Workspace

variable {workspace : Workspace} {path : Path} {failure : Failure}

theorem loadTypes_eq_error (failed : workspace.loadTypes path = .error failure) :
    (∃ fault, failure = .ofAccess fault) ∨ (∃ fault, failure = .notUtf8 path fault) ∨
      ∃ text, workspace.readFile path = .ok (Utf8.encode text) ∧
        typesOfText path (normalize text) = .error failure := by
  unfold loadTypes at failed
  split at failed
  · rename_i fault _
    cases failed
    exact .inl ⟨fault, rfl⟩
  · rename_i content held
    cases decoded : Utf8.decode content with
    | error fault =>
        simp only [decodeTypes, decoded, Except.error.injEq] at failed
        exact .inr (.inl ⟨fault, failed.symm⟩)
    | ok text =>
        obtain rfl := Utf8.decode_eq_ok_iff.mp decoded
        rw [decodeTypes_encode] at failed
        exact .inr (.inr ⟨text, held, failed⟩)

/-- A place in a file where it is told not to be JSON is never late: the text up to there,
with its line ends turned, begins some text that is read. Nor is a bare word refused where
no number could stand, whether line ends are turned or not. -/
theorem loadTypes_never_late (workspace : Workspace) (path : Path) :
    (∀ named complaint position,
      workspace.loadTypes path = .error (.malformed named complaint position) →
        named = path ∧ ∃ text, workspace.readFile path = .ok (Utf8.encode text) ∧
          SoundUpTo (normalize text) position) ∧
      ∀ named kind, workspace.loadTypes path = .error (.bareWord named kind) →
        named = path ∧ ∃ text, workspace.readFile path = .ok (Utf8.encode text) ∧
          MeetsWord kind text ∧ MeetsWord kind (normalize text) := by
  constructor
  · intro named complaint position failed
    rcases loadTypes_eq_error failed with ⟨fault, same⟩ | ⟨fault, same⟩ | ⟨text, held, refused⟩
    · cases fault <;> cases same
    · cases same
    · obtain ⟨rfl, rest, broken, rfl⟩ := typesOfText_eq_malformed_iff.mp refused
      exact ⟨rfl, text, held, soundUpTo_of_read broken⟩
  · intro named kind failed
    rcases loadTypes_eq_error failed with ⟨fault, same⟩ | ⟨fault, same⟩ | ⟨text, held, refused⟩
    · cases fault <;> cases same
    · cases same
    · obtain ⟨rfl, rest, broken⟩ := typesOfText_eq_bareWord_iff.mp refused
      obtain ⟨_, brokenToo⟩ := read_bareWord_of_normalize broken
      exact ⟨rfl, text, held, meetsWord_of_read brokenToo, meetsWord_of_read broken⟩

/-! A file that is cut off in a list, and one with a bare word there. -/

def holding (text : List Char) : Workspace :=
  empty.saving (sampleFile "posts") (Utf8.encode text)

def sampleCutOff : List Char := "\x7b\"a\":\r\n[1,x".toList

def sampleBareWord : List Char := "\x7b\"a\":[1,-Infinity]\x7d".toList

-- Values have no decidable equality, so what is evaluated is the result without them.
theorem loadTypes_holding {text : List Char}
    (refused : (typesOfText (sampleFile "posts") (normalize text)).map (fun _ => ()) =
      .error failure) : (holding text).loadTypes (sampleFile "posts") = .error failure := by
  rw [← map_eq_error_iff.mp refused, ← decodeTypes_encode]
  rfl

theorem loadTypes_sampleCutOff :
    (holding sampleCutOff).loadTypes (sampleFile "posts") =
      .error (.malformed (sampleFile "posts") .value ⟨9, 2, 4⟩) := by
  apply loadTypes_holding
  decide +kernel

theorem loadTypes_sampleBareWord :
    (holding sampleBareWord).loadTypes (sampleFile "posts") =
      .error (.bareWord (sampleFile "posts") .negativeInfinity) := by
  apply loadTypes_holding
  decide +kernel

theorem loadTypes_never_late_samples :
    ((holding sampleCutOff).loadTypes (sampleFile "posts") =
        .error (.malformed (sampleFile "posts") .value ⟨9, 2, 4⟩) ∧
      ∃ text, (holding sampleCutOff).readFile (sampleFile "posts") =
          .ok (Utf8.encode text) ∧ SoundUpTo (normalize text) ⟨9, 2, 4⟩) ∧
    (holding sampleBareWord).loadTypes (sampleFile "posts") =
        .error (.bareWord (sampleFile "posts") .negativeInfinity) ∧
      ∃ text, (holding sampleBareWord).readFile (sampleFile "posts") =
          .ok (Utf8.encode text) ∧ MeetsWord .negativeInfinity text ∧
            MeetsWord .negativeInfinity (normalize text) := by
  obtain ⟨_, late⟩ := (loadTypes_never_late _ _).1 _ _ _ loadTypes_sampleCutOff
  obtain ⟨_, met⟩ := (loadTypes_never_late _ _).2 _ _ loadTypes_sampleBareWord
  exact ⟨⟨loadTypes_sampleCutOff, late⟩, loadTypes_sampleBareWord, met⟩

end Workspace

end PalletTypes

import PalletTypes.Proofs.Aggregation.Accepted
import PalletTypes.Proofs.Aggregation.Failures
import PalletTypes.Proofs.Aggregation.Result
import PalletTypes.Proofs.Json.Literals

/-!
Which doubles loaded types may hold. A bare word is refused where a file is loaded, but a
number literal that is beyond all doubles is not: it is loaded as infinite, and refused only
where the types are written.
-/

namespace PalletTypes

open Json Grammar

theorem cause_of_encodeTypes {value : Value} {failure : Failure}
    (failed : encodeTypes value = .error failure) :
    (∃ run, failure = .unencodable run) ∨ ∃ kind, failure = .notFinite kind ∧
      ∃ float ∈ value.floats, float.nonFinite? = some kind := by
  rcases failure_of_encodeTypes failed with reported | ⟨kind, rfl⟩
  · unfold encodeTypes at failed
    split at failed
    · cases failed
      cases reported
    · obtain ⟨run, _, rfl⟩ := mapError_eq_error_iff.mp failed
      exact .inl ⟨run, rfl⟩
  · obtain ⟨float, member, beyond⟩ :=
      List.exists_of_findSome?_eq_some (encodeTypes_eq_notFinite_iff.mp failed)
    exact .inr ⟨kind, rfl, float, member, beyond⟩

namespace Workspace

variable {workspace : Workspace} {path : Path} {types : Members}

/-- Every double of loaded types is what a literal of the file stands for, and is infinite
exactly if that literal is beyond all doubles. The types can be written, or have surrogates,
or have such an infinite double; the last only if the file has such a literal. -/
theorem doubleIn_of_loadTypes (loaded : workspace.loadTypes path = .ok types) :
    ∃ text, workspace.readFile path = .ok (Utf8.encode text) ∧
      (∀ float ∈ (Value.object types).floats, ∃ literal, DoubleIn text literal ∧
        (literal.Overflows → float = .infinite literal.negative) ∧
        (¬ literal.Overflows → float.nonFinite? = none)) ∧
      (∀ failure, encodeTypes (.object types) = .error failure →
        (∃ run, failure = .unencodable run) ∨
          ∃ kind, failure = .notFinite kind ∧ OverflowIn text kind ∧
            .nonFinite kind ∈ (Value.object types).floats) ∧
      ((∀ kind, ¬ OverflowIn text kind) →
        (∀ float ∈ (Value.object types).floats, float.nonFinite? = none) ∧
          ∀ failure, encodeTypes (.object types) = .error failure →
            ∃ run, failure = .unencodable run) := by
  obtain ⟨text, held, _⟩ := loadTypes_eq_ok_iff_objectText.mp loaded
  have spelled := doubleIn_of_document ((loadTypes_eq_ok_iff_document held).mp loaded)
  have overflow : ∀ float ∈ (Value.object types).floats, ∀ kind,
      float.nonFinite? = some kind → OverflowIn text kind ∧ float = .nonFinite kind := by
    intro float member kind beyond
    obtain ⟨literal, inText, rfl⟩ := spelled float member
    exact inText.overflowIn beyond
  refine ⟨text, held, ?_, ?_, fun fits => ?_⟩
  · intro float member
    obtain ⟨literal, inText, rfl⟩ := spelled float member
    exact ⟨literal, inText, inText.overflow⟩
  · intro failure failed
    refine (cause_of_encodeTypes failed).imp_right ?_
    rintro ⟨kind, rfl, float, member, beyond⟩
    obtain ⟨inText, rfl⟩ := overflow float member kind beyond
    exact ⟨kind, rfl, inText, member⟩
  · have finite : ∀ float ∈ (Value.object types).floats, float.nonFinite? = none := by
      refine fun float member => Option.eq_none_iff_forall_ne_some.mpr fun kind beyond => ?_
      exact fits kind (overflow float member kind beyond).1
    refine ⟨finite, fun failure failed => (cause_of_encodeTypes failed).resolve_right ?_⟩
    rintro ⟨kind, _, float, member, beyond⟩
    rw [finite float member] at beyond
    cases beyond

def sampleLiteral : List Char := ['1', 'e', '3', '1', '0']

theorem scalar_sampleLiteral : Scalar sampleLiteral (.float (.nonFinite .infinity)) := by
  have whole : Whole ['1'] := .digits ⟨by decide, List.all_eq_true.mp rfl⟩ (by decide)
  have exponent : Exponent ['e', '3', '1', '0'] (some (false, ['3', '1', '0'])) :=
    .present (.inl rfl) .absent ⟨by decide, List.all_eq_true.mp rfl⟩
  have double : NumberValue ⟨false, ['1'], [], some (false, ['3', '1', '0'])⟩
      (.float (.nonFinite .infinity)) := .double (.inr (Option.some_ne_none _))
  exact .number (.parts .absent whole .absent exponent) double

def sampleOverflow : Workspace :=
  empty.saving (sampleFile "posts")
    (Utf8.encode ('{' :: separated [sampleSpelling 'a' sampleLiteral]))

def sampleInfinite : Members := [([.scalar 'a'], .float (.nonFinite .infinity))]

theorem loadTypes_sampleOverflow :
    sampleOverflow.loadTypes (sampleFile "posts") = .ok sampleInfinite := by
  have spelled : MemberPairs [sampleSpelling 'a' sampleLiteral] sampleInfinite :=
    .cons (member_sampleSpelling (by decide) scalar_sampleLiteral) .nil
  exact (holdsObject_of_separated rfl spelled).loadTypes spelled

theorem doubleIn_of_loadTypes_sampleOverflow :
    sampleOverflow.loadTypes (sampleFile "posts") = .ok sampleInfinite ∧
      ∃ text, sampleOverflow.readFile (sampleFile "posts") = .ok (Utf8.encode text) ∧
        OverflowIn text .infinity := by
  obtain ⟨text, held, _, failures, _⟩ := doubleIn_of_loadTypes loadTypes_sampleOverflow
  have failed : encodeTypes (.object sampleInfinite) = .error (.notFinite .infinity) := rfl
  rcases failures _ failed with ⟨run, impossible⟩ | ⟨kind, same, overflow, _⟩
  · cases impossible
  · cases same
    exact ⟨loadTypes_sampleOverflow, text, held, overflow⟩

/-- The file is loaded with an infinite double, and what is loaded cannot be written, which
is not reported. -/
theorem encodeTypes_sampleOverflow :
    sampleOverflow.readFile (sampleFile "posts") =
        .ok (Utf8.encode "\x7b\"a\":1e310\x7d".toList) ∧
      sampleOverflow.loadTypes (sampleFile "posts") = .ok sampleInfinite ∧
      Binary64.nonFinite .infinity ∈ (Value.object sampleInfinite).floats ∧
      encodeTypes (.object sampleInfinite) = .error (.notFinite .infinity) ∧
      (Failure.notFinite .infinity).isReported = false :=
  ⟨rfl, loadTypes_sampleOverflow, List.mem_cons_self, rfl, rfl⟩

end Workspace

end PalletTypes

import PalletTypes.Proofs.Aggregation.Infinite
import PalletTypes.Proofs.Aggregation.Interference
import PalletTypes.Proofs.Json.Places
import PalletTypes.Proofs.Merge.Overridden
import PalletTypes.Proofs.Text.SurrogateRun

/-!
What writing types comes to. A double that is not finite comes before everything else, then
surrogates, told by where they stand in the text to write. Entries that a later layer overrides
do not count.
-/

namespace PalletTypes

open Json

theorem Json.Value.writable_object_iff {members : Members} :
    (Value.object members).Writable ↔
      ∀ member ∈ members, member.1.NoSurrogates ∧ member.2.Writable := by
  refine ⟨fun writable member inside => writable.member inside, fun each => ⟨?_, ?_⟩⟩
  · rw [Value.floats, Value.floatsOfMembers_eq]
    intro float member
    obtain ⟨pair, inside, inValue⟩ := List.mem_flatMap.mp member
    exact (each pair inside).2.finite float inValue
  · rw [Value.content, Value.contentOfMembers_eq]
    intro codePoint member
    obtain ⟨pair, inside, inPair⟩ := List.mem_flatMap.mp member
    rcases List.mem_append.mp inPair with inName | inValue
    · exact (each pair inside).1 codePoint inName
    · exact (each pair inside).2.scalar codePoint inValue

theorem Json.Value.noSurrogates_content_iff {value : Value} :
    value.content.NoSurrogates ↔
      ∀ text half, value.HasText text → .surrogate half ∉ text := by
  constructor
  · intro clean text half hasText member
    cases clean _ (Value.mem_content_iff.mpr ⟨text, hasText, member⟩)
  · intro each codePoint member
    obtain ⟨text, hasText, inText⟩ := Value.mem_content_iff.mp member
    cases codePoint with
    | scalar character => rfl
    | surrogate half => exact absurd inText (each text half hasText)

theorem Text.ofChars_characters {text : Text} (clean : text.NoSurrogates) :
    ofChars text.characters = text := by
  induction text with
  | nil => rfl
  | cons codePoint text induction =>
      obtain ⟨isCharacter, others⟩ := noSurrogates_cons.mp clean
      cases codePoint with
      | scalar character => exact congrArg (_ :: ·) (induction others)
      | surrogate half => cases isCharacter

theorem encodeTypes_eq_notFinite_iff_first {value : Value} {kind : NonFinite} :
    encodeTypes value = .error (.notFinite kind) ↔ ∃ place, value.FirstNonFinite place kind :=
  encodeTypes_eq_notFinite_iff.trans Value.firstNonFinite?_eq_some_iff

theorem exists_encodeTypes_notFinite {value : Value} {place : List Nat} {kind : NonFinite}
    (stands : value.NonFiniteAt place kind) :
    ∃ kind, encodeTypes value = .error (.notFinite kind) := by
  cases found : value.firstNonFinite? with
  | none => exact absurd stands (Value.finite_of_firstNonFinite? found place kind)
  | some kind => exact ⟨kind, encodeTypes_eq_notFinite_iff.mpr found⟩

theorem firstNonFinite?_eq_none {value : Value}
    (finite : ∀ place kind, ¬ value.NonFiniteAt place kind) : value.firstNonFinite? = none := by
  cases found : value.firstNonFinite? with
  | none => rfl
  | some kind =>
      obtain ⟨place, first⟩ := Value.exists_firstNonFinite found
      exact absurd first.stands (finite place kind)

theorem encodeTypes_of_finite {value : Value}
    (finite : ∀ place kind, ¬ value.NonFiniteAt place kind) :
    ∃ text, value.render = .ok text ∧
      ((∃ name half, value.HasText name ∧ .surrogate half ∈ name) →
        ∃ run before tail after, encodeTypes value = .error (.unencodable run) ∧
          Utf8.FirstRun text run before tail after) ∧
      ((∀ name half, value.HasText name → .surrogate half ∉ name) →
        ∃ characters, text = Text.ofChars characters ∧
          encodeTypes value = .ok (Utf8.encode characters)) := by
  have rendered : value.render = .ok (value.layout 0) :=
    render_eq_ok_iff.mpr
      ⟨List.findSome?_eq_none_iff.mp (firstNonFinite?_eq_none finite), rfl⟩
  have written : encodeTypes value = (value.layout 0).encode.mapError .unencodable := by
    simp only [encodeTypes, rendered]
  have clean : (value.layout 0).NoSurrogates ↔
      ∀ name half, value.HasText name → .surrogate half ∉ name :=
    (noSurrogates_layout 0 value).trans Value.noSurrogates_content_iff
  refine ⟨value.layout 0, rendered, ?_, ?_⟩
  · rintro ⟨name, half, hasText, inName⟩
    have unclean : ¬ (value.layout 0).NoSurrogates := fun none =>
      clean.mp none name half hasText inName
    obtain ⟨run, before, tail, after, first⟩ := Utf8.exists_firstRun unclean
    refine ⟨run, before, tail, after, ?_, first⟩
    rw [written, Text.encode_eq_error_iff.mpr ⟨before, tail, after, first⟩]
    rfl
  · intro noSurrogate
    have isClean := clean.mpr noSurrogate
    refine ⟨(value.layout 0).characters, (Text.ofChars_characters isClean).symm, ?_⟩
    rw [written, Text.encode_eq_ok_iff.mpr ⟨isClean, rfl⟩]
    rfl

section Overridden

variable {layers others : List Members}

theorem exists_encodeTypes_iff {value : Value} :
    (∃ content, encodeTypes value = .ok content) ↔ value.Writable := by
  simp only [encodeTypes_eq_ok_iff, exists_and_left, exists_eq, and_true]

theorem writable_stack_iff (same : Ordered.SameUnlessOverridden layers others)
    (distinct : ∀ layer ∈ layers, (Ordered.keys layer).Nodup)
    (distinctOthers : ∀ layer ∈ others, (Ordered.keys layer).Nodup) :
    (Value.object (Ordered.stack layers)).Writable ↔
      (Value.object (Ordered.stack others)).Writable := by
  simp only [Value.writable_object_iff, same.mem_stack_iff distinct distinctOthers]

namespace Workspace

variable {workspace : Workspace} {site : Site} {request : Request}

theorem exists_plan_iff {root output : Path}
    (resolved : site.resolve request.root request.output = .ok (root, output))
    (loaded : workspace.Loads (typesPaths root request.pallets) layers) :
    (∃ plan, (workspace.plan site request).result = .ok plan) ↔
      (Value.object (Ordered.stack (request.seeds.layers ++ layers))).Writable := by
  have collected : workspace.collectTypes request.seeds (root.child palletsDirectoryName)
      request.pallets = _ := collectTypes_of_loads loaded
  rw [Merge.types_ofLayers] at collected
  simp only [plan, resolved, collected, map_eq_ok_iff, ← exists_encodeTypes_iff]
  constructor
  · rintro ⟨plan, content, encoded, _⟩
    exact ⟨content, encoded⟩
  · rintro ⟨content, encoded⟩
    exact ⟨_, content, encoded, rfl⟩

end Workspace

end Overridden

/-- What writing types comes to. The first double that is not finite, in the order of writing,
comes before everything else; without one there is a text, which is refused for its first run
of surrogates if a name or a string has one, and is written as UTF-8 otherwise. And whether
the types of all layers can be written depends on no entry that a later layer overrides. -/
theorem encodeTypes_outcome :
    (∀ value : Value,
      (∀ kind, encodeTypes value = .error (.notFinite kind) ↔
        ∃ place, value.FirstNonFinite place kind) ∧
      ((∃ place kind, value.NonFiniteAt place kind) →
        ∃ kind, encodeTypes value = .error (.notFinite kind)) ∧
      ((∀ place kind, ¬ value.NonFiniteAt place kind) →
        ∃ text, value.render = .ok text ∧
          ((∃ name half, value.HasText name ∧ .surrogate half ∈ name) →
            ∃ run before tail after, encodeTypes value = .error (.unencodable run) ∧
              Utf8.FirstRun text run before tail after) ∧
          ((∀ name half, value.HasText name → .surrogate half ∉ name) →
            ∃ characters, text = Text.ofChars characters ∧
              encodeTypes value = .ok (Utf8.encode characters)))) ∧
    ∀ {first second : Workspace} {site : Site} {seeds otherSeeds : Seeds}
      {root output : Option Path} {pallets : List String} {base place : Path}
      {layers others : List Members},
      site.resolve root output = .ok (base, place) →
      first.Loads (Workspace.typesPaths base pallets) layers →
      second.Loads (Workspace.typesPaths base pallets) others →
      (∀ layer ∈ seeds.layers ++ otherSeeds.layers, (Ordered.keys layer).Nodup) →
      Ordered.SameUnlessOverridden (seeds.layers ++ layers) (otherSeeds.layers ++ others) →
      ((∃ plan, (first.plan site ⟨seeds, root, pallets, output⟩).result = .ok plan) ↔
        ∃ plan, (second.plan site ⟨otherSeeds, root, pallets, output⟩).result = .ok plan) := by
  refine ⟨fun value => ⟨fun kind => encodeTypes_eq_notFinite_iff_first, ?_,
    encodeTypes_of_finite⟩, ?_⟩
  · rintro ⟨place, kind, stands⟩
    exact exists_encodeTypes_notFinite stands
  · intro first second site seeds otherSeeds root output pallets base place layers others
      resolved loaded loadedOthers distinctSeeds same
    have distinct (tree : Workspace) {layers : List Members}
        (loaded : tree.Loads (Workspace.typesPaths base pallets) layers) :
        ∀ layer ∈ layers, (Ordered.keys layer).Nodup := fun layer member =>
      nodup_keys_of_readable (Workspace.readable_of_all_loaded loaded layer member)
    rw [List.forall_mem_append] at distinctSeeds
    rw [Workspace.exists_plan_iff resolved loaded, Workspace.exists_plan_iff resolved loadedOthers]
    exact writable_stack_iff same
      (List.forall_mem_append.mpr ⟨distinctSeeds.1, distinct first loaded⟩)
      (List.forall_mem_append.mpr ⟨distinctSeeds.2, distinct second loadedOthers⟩)

/-! A tree whose last pallet overrides a name of the pallet listed twice before it, and values
with surrogates. -/

namespace Workspace

open Grammar

theorem loads_sampleShared {posts : List (List Char)} {pairs : List (Text × Value)}
    (each : MemberPairs posts pairs) :
    (sampleShared posts).Loads (sampleListed.map sampleFile) [Ordered.putAll [] pairs,
      [([.scalar 'd'], .null), ([.scalar 'b'], .null)], Ordered.putAll [] pairs,
      [([.scalar 'd'], .bool true)]] := by
  have here := loadTypes_samplePosts each
  exact .cons here (.cons loadTypes_sampleRoles (.cons here (.cons loadTypes_sampleUtils .nil)))

def sampleHalf : CodePoint := .surrogate ⟨0⟩

def sampleSurrogates : Members :=
  [([.scalar 'a'], .array [.string [sampleHalf]]), ([.scalar 'b', sampleHalf, sampleHalf], .null)]

theorem encodeTypes_outcome_sampleShared :
    (∃ plan, ((sampleShared [sampleSpelling 'd' sampleLiteral]).plan sampleSite
        ⟨.standard, none, sampleListed, none⟩).result = .ok plan) ∧
      (∃ kind, encodeTypes (.object (sampleSurrogates ++ sampleInfinite)) =
        .error (.notFinite kind)) ∧
      ∃ run, encodeTypes (.object sampleSurrogates) = .error (.unencodable run) := by
  obtain ⟨outcome, overridden⟩ := encodeTypes_outcome
  refine ⟨?_, (outcome _).2.1 ⟨[2], .infinity, rfl⟩, ?_⟩
  · have infinite : MemberPairs [sampleSpelling 'd' sampleLiteral]
        [([.scalar 'd'], .float (.nonFinite .infinity))] :=
      .cons (member_sampleSpelling (by decide) scalar_sampleLiteral) .nil
    have null : MemberPairs [sampleSpelling 'd' "null".toList] [([.scalar 'd'], .null)] :=
      .cons (member_sampleSpelling (by decide) .null) .nil
    have planned : ∃ plan, ((sampleShared [sampleSpelling 'd' "null".toList]).plan sampleSite
        ⟨.standard, none, sampleListed, none⟩).result = .ok plan :=
      (exists_plan_iff rfl (loads_sampleShared null)).mpr (exists_encodeTypes_iff.mp ⟨_, rfl⟩)
    have seeds : ∀ layer ∈ Seeds.standard.layers ++ Seeds.standard.layers,
        (Ordered.keys layer).Nodup := by
      decide
    refine (overridden rfl (loads_sampleShared null) (loads_sampleShared infinite) seeds
      (.append_left _ ?_)).mp planned
    have replaced (value : Value) (name : Text) :
        Ordered.lookup? name [([.scalar 'd'], Value.null)] =
          Ordered.lookup? name [([.scalar 'd'], value)] ∨ name = [.scalar 'd'] := by
      by_cases same : [.scalar 'd'] = name
      · exact .inr same.symm
      · simp [Ordered.lookup?, same]
    have later (name : Text) := replaced (.float (.nonFinite .infinity)) name
    refine .cons (fun name => (later name).imp_right ?_)
      (.cons (fun _ => .inl rfl) (.cons (fun name => (later name).imp_right ?_) (.refl _)))
    · rintro rfl
      exact ⟨[([.scalar 'd'], .bool true)], by simp, by decide⟩
    · rintro rfl
      exact ⟨[([.scalar 'd'], .bool true)], by simp, by decide⟩
  · have finite := Value.finite_of_firstNonFinite?
      (show (Value.object sampleSurrogates).firstNonFinite? = none from rfl)
    obtain ⟨_, _, refused, _⟩ := (outcome (.object sampleSurrogates)).2.2 finite
    obtain ⟨run, _, _, _, failed, _⟩ := refused
      ⟨[.scalar 'b', sampleHalf, sampleHalf], ⟨0⟩,
        ⟨[], _, rfl, by simp [Value.texts, sampleSurrogates]⟩, by simp [sampleHalf]⟩
    exact ⟨run, failed⟩

end Workspace

end PalletTypes

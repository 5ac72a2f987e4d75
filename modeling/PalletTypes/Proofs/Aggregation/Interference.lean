import PalletTypes.Proofs.Aggregation.Accepted
import PalletTypes.Proofs.Aggregation.Result
import PalletTypes.Proofs.Merge.Stacking

/-!
Two trees that differ in the types of one pallet alone. What its types do not name is the
same in both aggregates, in the same order, and so is what a later pallet names.
-/

namespace PalletTypes

open Json Json.Grammar

namespace Workspace

variable {first second : Workspace} {place : Location} {path : Path}

/-- The same directory to start from, and the same entries everywhere but at one place. -/
structure SameElsewhere (place : Location) (first second : Workspace) : Prop where
  directory : second.directory = first.directory
  entries : ∀ location, location ≠ place →
    second.tree.entry? location = first.tree.entry? location

theorem SameElsewhere.reaches (same : SameElsewhere place first second)
    (noDirectory : first.tree.entry? place ≠ some .directory) : first.Reaches second where
  directory := same.directory
  kept := by
    intro location standing
    have apart : location ≠ place := fun isPlace => noDirectory (isPlace ▸ standing)
    rw [same.entries location apart, standing]

theorem SameElsewhere.readFile (same : SameElsewhere place first second)
    (noDirectory : first.tree.entry? place ≠ some .directory)
    (apart : first.locate path ≠ .ok place) {content : Bytes}
    (held : first.readFile path = .ok content) : second.readFile path = .ok content := by
  obtain ⟨location, located, standing⟩ := readFile_eq_ok_iff.mp held
  have elsewhere : location ≠ place := fun isPlace => apart (isPlace ▸ located)
  exact readFile_eq_ok_iff.mpr ⟨location, (same.reaches noDirectory).locate located,
    (same.entries location elsewhere).trans standing⟩

theorem SameElsewhere.loadTypes (same : SameElsewhere place first second)
    (noDirectory : first.tree.entry? place ≠ some .directory)
    (apart : first.locate path ≠ .ok place) {layer : Members}
    (loaded : first.loadTypes path = .ok layer) : second.loadTypes path = .ok layer := by
  obtain ⟨content, held, decoded⟩ := loadTypes_eq_ok_iff.mp loaded
  exact loadTypes_eq_ok_iff.mpr ⟨content, same.readFile noDirectory apart held, decoded⟩

variable {seeds : Seeds} {directory : Path} {pallets : List String}

/-- The types of a pallet; none if they cannot be loaded. -/
def typesOf (workspace : Workspace) (directory : Path) (pallet : String) : Members :=
  (workspace.loadTypes (typesPath directory pallet)).toOption.getD []

theorem typesOf_eq {workspace : Workspace} {pallet : String} {layer : Members}
    (loaded : workspace.loadTypes (typesPath directory pallet) = .ok layer) :
    workspace.typesOf directory pallet = layer := by
  rw [typesOf, loaded]
  rfl

theorem eq_typesOf_of_loaded {workspace : Workspace} {layers : List Members}
    (loaded : List.Forall₂ (fun path layer => workspace.loadTypes path = .ok layer)
      (pallets.map (typesPath directory)) layers) :
    layers = pallets.map (workspace.typesOf directory) ∧
      ∀ pallet ∈ pallets, workspace.loadTypes (typesPath directory pallet) =
        .ok (workspace.typesOf directory pallet) := by
  rw [List.forall₂_map_left_iff] at loaded
  induction loaded with
  | nil => exact ⟨rfl, fun _ member => nomatch member⟩
  | cons here _ induction =>
      obtain ⟨same, all⟩ := induction
      obtain rfl := typesOf_eq here
      exact ⟨congrArg _ same, List.forall_mem_cons.mpr ⟨here, all⟩⟩

theorem collectTypes_typesOf {workspace : Workspace} {types : Members}
    (collected : (workspace.collectTypes seeds directory pallets).result = .ok types) :
    types = Ordered.stack (seeds.layers ++ pallets.map (workspace.typesOf directory)) ∧
      ∀ pallet ∈ pallets, workspace.loadTypes (typesPath directory pallet) =
        .ok (workspace.typesOf directory pallet) := by
  obtain ⟨layers, loaded, rfl⟩ := collectTypes_eq_ok_iff.mp collected
  obtain ⟨rfl, all⟩ := eq_typesOf_of_loaded loaded
  exact ⟨rfl, all⟩

section TwoTrees

variable {pallet : String} {held : Members}

theorem SameElsewhere.typesOf (same : SameElsewhere place first second)
    (located : first.locate (typesPath directory pallet) = .ok place)
    (loaded : first.loadTypes (typesPath directory pallet) = .ok held)
    (apart : ∀ other ∈ pallets, other ≠ pallet →
      first.locate (typesPath directory other) ≠ .ok place)
    (all : ∀ other ∈ pallets, first.loadTypes (typesPath directory other) =
      .ok (first.typesOf directory other)) :
    ∀ other ∈ pallets, other ≠ pallet →
      second.typesOf directory other = first.typesOf directory other := by
  obtain ⟨content, read, _⟩ := loadTypes_eq_ok_iff.mp loaded
  obtain ⟨location, leads, standing⟩ := readFile_eq_ok_iff.mp read
  have noDirectory : first.tree.entry? place ≠ some .directory := by
    rw [located] at leads
    cases leads
    simp [standing]
  intro other member different
  exact typesOf_eq (same.loadTypes noDirectory (apart other member different)
    (all other member))

/-- Types collected from two trees that differ in the file of one pallet alone. The names
that neither of its files has are the same in both, with the same values and in the same
order; a name that a pallet after its last place has holds the same in both; and a name
that is in one alone is of one of its files and of nothing else. -/
theorem collectTypes_differ_by_pallet {otherHeld types otherTypes : Members}
    (same : SameElsewhere place first second)
    (located : first.locate (typesPath directory pallet) = .ok place)
    (apart : ∀ other ∈ pallets, other ≠ pallet →
      first.locate (typesPath directory other) ≠ .ok place)
    (loaded : first.loadTypes (typesPath directory pallet) = .ok held)
    (loadedOther : second.loadTypes (typesPath directory pallet) = .ok otherHeld)
    (collected : (first.collectTypes seeds directory pallets).result = .ok types)
    (collectedOther : (second.collectTypes seeds directory pallets).result =
      .ok otherTypes) :
    Ordered.without (Ordered.keys held ++ Ordered.keys otherHeld) types =
        Ordered.without (Ordered.keys held ++ Ordered.keys otherHeld) otherTypes ∧
      (∀ before after, pallets = before ++ after → pallet ∉ after →
        ∀ later ∈ after, ∀ layer,
          first.loadTypes (typesPath directory later) = .ok layer →
            ∀ name ∈ Ordered.keys layer,
              Ordered.lookup? name otherTypes = Ordered.lookup? name types) ∧
      ∀ name, ¬(name ∈ Ordered.keys types ↔ name ∈ Ordered.keys otherTypes) →
        (name ∈ Ordered.keys held ∨ name ∈ Ordered.keys otherHeld) ∧
          (∀ layer ∈ seeds.layers, name ∉ Ordered.keys layer) ∧
            ∀ other ∈ pallets, other ≠ pallet → ∀ layer,
              first.loadTypes (typesPath directory other) = .ok layer →
                name ∉ Ordered.keys layer := by
  obtain ⟨rfl, all⟩ := collectTypes_typesOf collected
  obtain ⟨rfl, _⟩ := collectTypes_typesOf collectedOther
  have alike := same.typesOf located loaded apart all
  rw [← typesOf_eq loaded, ← typesOf_eq loadedOther]
  refine ⟨Ordered.without_stack_alike alike, ?_, ?_⟩
  · rintro before after rfl last later member layer loadedLater name named
    rw [← typesOf_eq loadedLater] at named
    refine Ordered.lookup?_stack_alike alike last (fun other inAfter => ?_) member named
    exact nodup_keys_of_readable
      (readable_of_loadTypes (all other (List.mem_append_right _ inAfter)))
  · intro name onlyOne
    by_cases here : name ∈ Ordered.keys
        (Ordered.stack (seeds.layers ++ pallets.map (first.typesOf directory)))
    · have gone := fun there => onlyOne (iff_of_true here there)
      obtain ⟨named, noSeed, noOther⟩ := Ordered.mem_keys_stack_alike alike here gone
      refine ⟨Or.inl named, noSeed, fun other member different layer loadedOther => ?_⟩
      exact typesOf_eq loadedOther ▸ noOther other member different
    · have there := by_contra fun gone => onlyOne (iff_of_false here gone)
      have alikeBack : ∀ other ∈ pallets, other ≠ pallet →
          first.typesOf directory other = second.typesOf directory other :=
        fun other member different => (alike other member different).symm
      obtain ⟨named, noSeed, noOther⟩ := Ordered.mem_keys_stack_alike alikeBack there here
      refine ⟨Or.inr named, noSeed, fun other member different layer loadedOther => ?_⟩
      rw [← typesOf_eq loadedOther, ← alike other member different]
      exact noOther other member different

end TwoTrees

/-! Three pallets, of which the first is listed twice, once before and once after the
second, which shares a name with it. -/

def sampleRoles : List (List Char) :=
  [sampleSpelling 'd' "null".toList, sampleSpelling 'b' "null".toList]

def sampleUtils : List (List Char) := [sampleSpelling 'd' "true".toList]

def sampleShared (posts : List (List Char)) : Workspace :=
  ((empty.saving (sampleFile "roles") (Utf8.encode ('{' :: separated sampleRoles))).saving
    (sampleFile "utils") (Utf8.encode ('{' :: separated sampleUtils))).saving
      (sampleFile "posts") (Utf8.encode ('{' :: separated posts))

def sampleListed : List String := ["posts", "roles", "posts", "utils"]

def samplePlace : Location := ["types.json", "posts", "pallets"]

theorem sameElsewhere_sampleShared (posts other : List (List Char)) :
    SameElsewhere samplePlace (sampleShared posts) (sampleShared other) := by
  have written : (sampleShared posts).writeFile (sampleFile "posts")
      (Utf8.encode ('{' :: separated other)) = .ok (sampleShared other) := rfl
  obtain ⟨location, located, places⟩ := writeFile_places written
  cases located
  exact ⟨places.directory, fun location apart => places.elsewhere apart⟩

section Loaded

variable {posts : List (List Char)} {pairs : List (Text × Value)}

theorem loadTypes_samplePosts (each : MemberPairs posts pairs) :
    (sampleShared posts).loadTypes (sampleFile "posts") = .ok (Ordered.putAll [] pairs) :=
  (holdsObject_of_separated rfl each).loadTypes each

theorem loadTypes_sampleRoles :
    (sampleShared posts).loadTypes (sampleFile "roles") =
      .ok [([.scalar 'd'], .null), ([.scalar 'b'], .null)] := by
  have each : MemberPairs sampleRoles [([.scalar 'd'], .null), ([.scalar 'b'], .null)] :=
    .cons (member_sampleSpelling (by decide) .null)
      (.cons (member_sampleSpelling (by decide) .null) .nil)
  exact (holdsObject_of_separated rfl each).loadTypes each

theorem loadTypes_sampleUtils :
    (sampleShared posts).loadTypes (sampleFile "utils") =
      .ok [([.scalar 'd'], .bool true)] := by
  have each : MemberPairs sampleUtils [([.scalar 'd'], .bool true)] :=
    .cons (member_sampleSpelling (by decide) .true) .nil
  exact (holdsObject_of_separated rfl each).loadTypes each

theorem collectTypes_sampleShared (each : MemberPairs posts pairs) :
    ((sampleShared posts).collectTypes .standard sampleDirectory sampleListed).result =
      .ok (Ordered.stack (Seeds.standard.layers ++ [Ordered.putAll [] pairs,
        [([.scalar 'd'], .null), ([.scalar 'b'], .null)], Ordered.putAll [] pairs,
        [([.scalar 'd'], .bool true)]])) := by
  have here := loadTypes_samplePosts each
  exact collectTypes_eq_ok_iff.mpr ⟨_, .cons here (.cons loadTypes_sampleRoles
    (.cons here (.cons loadTypes_sampleUtils .nil))), rfl⟩

end Loaded

theorem collectTypes_differ_by_pallet_sampleShared :
    ∃ first second types otherTypes,
      SameElsewhere samplePlace first second ∧
      (first.collectTypes .standard sampleDirectory sampleListed).result = .ok types ∧
      (second.collectTypes .standard sampleDirectory sampleListed).result =
        .ok otherTypes ∧
      Ordered.without (["a", "b", "c", "b"].map Text.ofString) types =
        Ordered.without (["a", "b", "c", "b"].map Text.ofString) otherTypes ∧
      Ordered.lookup? (Text.ofString "d") otherTypes =
        Ordered.lookup? (Text.ofString "d") types ∧
      Text.ofString "a" ∈ Ordered.keys types ∧ Text.ofString "a" ∉ Ordered.keys otherTypes ∧
      ∀ layer ∈ Seeds.standard.layers, Text.ofString "a" ∉ Ordered.keys layer := by
  have each : MemberPairs
      [sampleSpelling 'a' "null".toList, sampleSpelling 'b' "true".toList]
      [([.scalar 'a'], .null), ([.scalar 'b'], .bool true)] :=
    .cons (member_sampleSpelling (by decide) .null)
      (.cons (member_sampleSpelling (by decide) .true) .nil)
  have eachOther : MemberPairs
      [sampleSpelling 'c' "null".toList, sampleSpelling 'b' "false".toList]
      [([.scalar 'c'], .null), ([.scalar 'b'], .bool false)] :=
    .cons (member_sampleSpelling (by decide) .null)
      (.cons (member_sampleSpelling (by decide) .false) .nil)
  have same := sameElsewhere_sampleShared
    [sampleSpelling 'a' "null".toList, sampleSpelling 'b' "true".toList]
    [sampleSpelling 'c' "null".toList, sampleSpelling 'b' "false".toList]
  have apart : ∀ other ∈ sampleListed, other ≠ "posts" →
      (sampleShared [sampleSpelling 'a' "null".toList, sampleSpelling 'b' "true".toList]).locate
        (typesPath sampleDirectory other) ≠ .ok samplePlace := by
    decide
  have collected := collectTypes_sampleShared each
  have collectedOther := collectTypes_sampleShared eachOther
  obtain ⟨unnamed, later, one⟩ := collectTypes_differ_by_pallet same rfl apart
    (loadTypes_samplePosts each) (loadTypes_samplePosts eachOther) collected collectedOther
  refine ⟨_, _, _, _, same, collected, collectedOther, unnamed, ?_, by decide, by decide, ?_⟩
  · exact later (sampleListed.take 3) ["utils"] rfl (by decide) "utils" (by decide) _
      loadTypes_sampleUtils _ (by decide)
  · exact (one (Text.ofString "a") (by decide)).2.1

end Workspace

end PalletTypes

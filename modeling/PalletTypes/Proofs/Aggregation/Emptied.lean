import PalletTypes.Proofs.Aggregation.Encoding

/-!
Two trees, the second of which has an empty object in the place of one pallet's types. What
is loaded of the other pallets in the second tree is loaded in the first one too, and what
the first tree's types lack to be written comes of that pallet.
-/

namespace PalletTypes

open Json

namespace Workspace

variable {first second : Workspace} {place : Location} {path : Path}

/-- The second tree has a file with an empty object at the place; what stands neither above
nor below it is the same in both. The first tree may lack the directories above it. -/
structure EmptiedAt (place : Location) (first second : Workspace) : Prop where
  directory : second.directory = first.directory
  held : second.tree.entry? place = some (.file [0x7B, 0x7D])
  entries : ∀ location, ¬ place <:+ location → ¬ location <:+ place →
    second.tree.entry? location = first.tree.entry? location

namespace EmptiedAt

variable {location : Location}

theorem not_below (emptied : EmptiedAt place first second) {entry : Entry}
    (standing : second.tree.entry? location = some entry) (apart : location ≠ place) :
    ¬ place <:+ location := by
  intro below
  have isDirectory := FileTree.directory_of_below standing below apart.symm
  rw [emptied.held] at isDirectory
  cases isDirectory

theorem entry?_eq (emptied : EmptiedAt place first second) {entry : Entry}
    (standing : second.tree.entry? location = some entry) (beside : ¬ location <:+ place) :
    first.tree.entry? location = some entry := by
  have notBelow : ¬ place <:+ location :=
    emptied.not_below standing fun same => beside (same ▸ List.suffix_refl _)
  rw [← emptied.entries location notBelow beside, standing]

theorem reaches (emptied : EmptiedAt place first second)
    (inDirectory : first.tree.entry? place.tail = some .directory) :
    second.Reaches first where
  directory := emptied.directory.symm
  kept := by
    intro location standing
    by_cases above : location <:+ place
    · have different : location ≠ place := by
        rintro rfl
        rw [emptied.held] at standing
        cases standing
      have aboveTail : location <:+ place.tail := by
        cases place with
        | nil => exact above
        | cons name parent => exact (List.suffix_cons_iff.mp above).resolve_left different
      by_cases same : location = place.tail
      · exact same ▸ inDirectory
      · exact FileTree.directory_of_below inDirectory aboveTail same
    · exact emptied.entry?_eq standing above

/-- A path leads to the same place in both trees unless it leads through missing directories
and back. -/
theorem locate (emptied : EmptiedAt place first second)
    (way : ".." ∉ path.names ∨ first.tree.entry? place.tail = some .directory)
    (located : second.locate path = .ok location)
    (standing : first.tree.entry? location.tail = some .directory) :
    first.locate path = .ok location := by
  rcases way with descends | inDirectory
  · rw [locate_eq_ok_iff] at located ⊢
    obtain ⟨clean, fits, walked⟩ := located
    have sameStart : first.start path = second.start path := by
      unfold start
      rw [emptied.directory]
    exact ⟨clean, fits, sameStart ▸ FileTree.walk_of_descends descends walked standing⟩
  · exact (emptied.reaches inDirectory).locate located

theorem loadTypes (emptied : EmptiedAt place first second)
    (way : ".." ∉ path.names ∨ first.tree.entry? place.tail = some .directory)
    (located : second.locate path = .ok location) (beside : ¬ location <:+ place)
    {layer : Members} (loaded : second.loadTypes path = .ok layer) :
    first.loadTypes path = .ok layer := by
  obtain ⟨content, held, decoded⟩ := loadTypes_eq_ok_iff.mp loaded
  obtain ⟨_, locatedAgain, standing⟩ := readFile_eq_ok_iff.mp held
  cases located.symm.trans locatedAgain
  have stays := emptied.entry?_eq standing beside
  have inDirectory : first.tree.entry? location.tail = some .directory := by
    cases location with
    | nil => exact absurd List.nil_suffix beside
    | cons name parent => exact first.tree.closed stays
  exact loadTypes_eq_ok_iff.mpr ⟨content, readFile_eq_ok_iff.mpr
    ⟨location, emptied.locate way located inDirectory, stays⟩, decoded⟩

theorem loadTypes_place (emptied : EmptiedAt place first second)
    (located : second.locate path = .ok place) : second.loadTypes path = .ok [] :=
  loadTypes_eq_ok_iff.mpr
    ⟨[0x7B, 0x7D], readFile_eq_ok_iff.mpr ⟨place, located, emptied.held⟩, rfl⟩

theorem inDirectory (emptied : EmptiedAt place first second)
    (way : ".." ∉ path.names ∨ first.tree.entry? place.tail = some .directory)
    (located : second.locate path = .ok place) {layer : Members}
    (loaded : first.loadTypes path = .ok layer) :
    first.tree.entry? place.tail = some .directory := by
  refine way.elim (fun descends => ?_) id
  obtain ⟨content, held, _⟩ := loadTypes_eq_ok_iff.mp loaded
  obtain ⟨other, locatedFirst, standing⟩ := readFile_eq_ok_iff.mp held
  have samePlace : other = place := by
    have endsFirst := FileTree.eq_of_walk descends (locate_eq_ok_iff.mp locatedFirst).2.2
    have endsSecond := FileTree.eq_of_walk descends (locate_eq_ok_iff.mp located).2.2
    unfold start at endsFirst endsSecond
    rw [endsFirst, endsSecond, emptied.directory]
  subst samePlace
  cases other with
  | nil => cases standing
  | cons name parent => exact first.tree.closed standing

end EmptiedAt

/-- The spelling is that of one name, which leads to no parent. -/
def PlainName (name : String) : Prop :=
  Path.ofString name = ⟨.relative, [name]⟩ ∧ name ≠ ".."

instance (name : String) : Decidable (PlainName name) :=
  inferInstanceAs (Decidable (_ ∧ _))

theorem plainName_standardPallets : ∀ pallet ∈ standardPallets, PlainName pallet := by
  decide

theorem plainName_typesFileName : PlainName typesFileName := by
  decide

theorem plainName_palletsDirectoryName : PlainName palletsDirectoryName := by
  decide

theorem parent_child {directory : Path} {name : String} (plain : PlainName name) :
    (directory.child name).parent = directory := by
  simp [Path.child, plain.1, Path.join, Path.parent]

theorem names_child {directory : Path} {name : String} (plain : PlainName name) :
    (directory.child name).names = directory.names ++ [name] := by
  simp [Path.child, plain.1, Path.join]

theorem descends_child {directory : Path} {name : String} (plain : PlainName name)
    (descends : ".." ∉ directory.names) : ".." ∉ (directory.child name).names := by
  rw [names_child plain, List.mem_append, List.mem_singleton]
  rintro (inDirectory | same)
  · exact descends inDirectory
  · exact plain.2 same.symm

theorem descends_typesPath {directory : Path} {pallet : String}
    (listed : pallet ∈ standardPallets) (descends : ".." ∉ directory.names) :
    ".." ∉ (typesPath directory pallet).names :=
  descends_child plainName_typesFileName
    (descends_child (plainName_standardPallets pallet listed) descends)

theorem locate_child {workspace : Workspace} {directory : Path} {name : String}
    {location : Location} (plain : PlainName name)
    (located : workspace.locate (directory.child name) = .ok location) :
    ∃ outer, workspace.locate directory = .ok outer ∧
      workspace.tree.entry? outer = some .directory ∧ location = name :: outer := by
  obtain ⟨outer, reached, standing⟩ := locate_parent located
  rw [parent_child plain] at reached
  refine ⟨outer, reached, standing, ?_⟩
  obtain ⟨_, _, walked⟩ := locate_eq_ok_iff.mp located
  obtain ⟨_, _, walkedOuter⟩ := locate_eq_ok_iff.mp reached
  have start : workspace.start (directory.child name) = workspace.start directory := by
    simp [Path.child, plain.1, Path.join, Workspace.start]
  rw [names_child plain, start, FileTree.walk_append, walkedOuter] at walked
  simp only [Except.bind, FileTree.walk, standing, if_neg plain.2] at walked
  split at walked
  · cases walked
  · exact (Except.ok.inj walked).symm

theorem locate_typesPath {workspace : Workspace} {directory : Path} {pallet : String}
    {location : Location} (listed : pallet ∈ standardPallets)
    (located : workspace.locate (typesPath directory pallet) = .ok location) :
    ∃ outer, workspace.locate directory = .ok outer ∧
      location = typesFileName :: pallet :: outer := by
  obtain ⟨inner, inPallet, _, rfl⟩ := locate_child plainName_typesFileName located
  obtain ⟨outer, reached, _, rfl⟩ :=
    locate_child (plainName_standardPallets pallet listed) inPallet
  exact ⟨outer, reached, rfl⟩

section Loaded

variable {directory : Path} {pallet : String} {layers : List Members}

theorem loads_map {workspace : Workspace} {pallets : List String} {held : String → Members}
    (each : ∀ pallet ∈ pallets,
      workspace.loadTypes (typesPath directory pallet) = .ok (held pallet)) :
    workspace.Loads (pallets.map (typesPath directory)) (pallets.map held) :=
  List.forall₂_map_left_iff.mpr (List.forall₂_map_right_iff.mpr (List.forall₂_same.mpr each))

theorem EmptiedAt.loads (emptied : EmptiedAt place first second)
    (way : ".." ∉ directory.names ∨ first.tree.entry? place.tail = some .directory)
    (listed : pallet ∈ standardPallets)
    (located : second.locate (typesPath directory pallet) = .ok place)
    (loaded : second.Loads (standardPallets.map (typesPath directory)) layers) :
    ∃ before after lower upper, standardPallets = before ++ pallet :: after ∧
      layers = lower ++ [] :: upper ∧
      first.Loads (before.map (typesPath directory)) lower ∧
      first.Loads (after.map (typesPath directory)) upper := by
  obtain ⟨before, after, split⟩ := List.append_of_mem listed
  obtain ⟨rfl, all⟩ := eq_typesOf_of_loaded loaded
  have noRepeat : pallet ∉ before ∧ pallet ∉ after := by
    have distinct : standardPallets.Nodup := by decide
    rw [split, List.nodup_middle, List.nodup_cons, List.mem_append, not_or] at distinct
    exact distinct.1
  have same : ∀ other ∈ standardPallets, other ≠ pallet →
      first.loadTypes (typesPath directory other) = .ok (second.typesOf directory other) := by
    intro other member different
    have loadedOther := all other member
    obtain ⟨_, held, _⟩ := loadTypes_eq_ok_iff.mp loadedOther
    obtain ⟨location, locatedOther, _⟩ := readFile_eq_ok_iff.mp held
    refine emptied.loadTypes (way.imp_left (descends_typesPath member)) locatedOther ?_
      loadedOther
    obtain ⟨_, inDirectory, atPallet⟩ := locate_typesPath listed located
    obtain ⟨_, inDirectoryToo, atOther⟩ := locate_typesPath member locatedOther
    cases inDirectory.symm.trans inDirectoryToo
    intro above
    have same := above.eq_of_length (by rw [atPallet, atOther]; rfl)
    rw [atPallet, atOther] at same
    cases same
    exact different rfl
  refine ⟨before, after, before.map (second.typesOf directory),
    after.map (second.typesOf directory), split, ?_, loads_map ?_, loads_map ?_⟩
  · rw [split, List.map_append, List.map_cons, typesOf_eq (emptied.loadTypes_place located)]
  · intro other member
    exact same other (split ▸ List.mem_append_left _ member)
      fun isPallet => noRepeat.1 (isPallet ▸ member)
  · intro other member
    exact same other (split ▸ List.mem_append_right _ (List.mem_cons_of_mem _ member))
      fun isPallet => noRepeat.2 (isPallet ▸ member)

end Loaded

end Workspace

theorem surrogates_of_unencodable {value : Value} {run : Utf8.SurrogateRun}
    (failed : encodeTypes value = .error (.unencodable run)) : ¬ value.content.NoSurrogates := by
  intro clean
  unfold encodeTypes at failed
  split at failed
  · cases failed
  · rename_i rendered
    obtain ⟨_, rfl⟩ := render_eq_ok_iff.mp rendered
    rw [Text.encode_eq_ok_iff.mpr ⟨(noSurrogates_layout 0 value).mpr clean, rfl⟩] at failed
    cases failed

theorem cause_of_encodeTypes_emptied {lower upper : List Members} {types : Members}
    {failure : Failure}
    (distinct : ∀ layer ∈ lower ++ types :: upper, (Ordered.keys layer).Nodup)
    (writable : (Value.object (Ordered.stack (lower ++ [] :: upper))).Writable)
    (failed : encodeTypes (.object (Ordered.stack (lower ++ types :: upper))) =
      .error failure) :
    (∃ run, failure = .unencodable run ∧ ¬ (Value.object types).content.NoSurrogates) ∨
      ∃ kind, failure = .notFinite kind ∧
        .nonFinite kind ∈ (Value.object types).floats := by
  rw [Value.writable_object_iff] at writable
  rcases cause_of_encodeTypes failed with ⟨run, rfl⟩ | ⟨kind, rfl, float, member, beyond⟩
  · refine .inl ⟨run, rfl, fun clean => surrogates_of_unencodable failed ?_⟩
    rw [Value.content, Value.contentOfMembers_eq] at clean ⊢
    intro codePoint inside
    obtain ⟨entry, inStack, inEntry⟩ := List.mem_flatMap.mp inside
    rcases Ordered.mem_stack_of_emptied distinct inStack with inTypes | inOthers
    · exact clean codePoint (List.mem_flatMap.mpr ⟨entry, inTypes, inEntry⟩)
    · obtain ⟨cleanName, writableValue⟩ := writable entry inOthers
      exact Text.noSurrogates_append.mpr ⟨cleanName, writableValue.scalar⟩ codePoint inEntry
  · refine .inr ⟨kind, rfl, ?_⟩
    rw [Value.floats, Value.floatsOfMembers_eq] at member ⊢
    obtain ⟨entry, inStack, inEntry⟩ := List.mem_flatMap.mp member
    rcases Ordered.mem_stack_of_emptied distinct inStack with inTypes | inOthers
    · have isKind : float = .nonFinite kind := by
        cases float with
        | finite => cases beyond
        | nonFinite other => exact congrArg _ (Option.some.inj beyond)
      exact List.mem_flatMap.mpr ⟨entry, inTypes, isKind ▸ inEntry⟩
    · rw [(writable entry inOthers).2.finite float inEntry] at beyond
      cases beyond

end PalletTypes

import Mathlib.Data.List.DropRight
import PalletTypes.Path

/-!
Paths without null characters, and paths in a home directory. The names of a path hold
only what its spelling holds, and names are only put together.
-/

namespace PalletTypes.Path

def NullFree (path : Path) : Prop :=
  ∀ name ∈ path.names, '\x00' ∉ name.toList

theorem mem_of_mem_component {spelling component : List Char} {character : Char}
    (member : component ∈ components spelling) (inside : character ∈ component) :
    character ∈ spelling := by
  fun_induction components spelling generalizing component with
  | case1 =>
      rw [List.mem_singleton.mp member] at inside
      cases inside
  | case2 rest induction =>
      rcases List.mem_cons.mp member with rfl | member
      · cases inside
      · exact List.mem_cons_of_mem _ (induction member inside)
  | case3 first rest noSlash none induction =>
      rw [List.mem_singleton.mp member] at inside
      exact List.mem_singleton.mp inside ▸ List.mem_cons_self
  | case4 first rest noSlash head tail split induction =>
      rw [split] at induction
      rcases List.mem_cons.mp member with rfl | member
      · rcases List.mem_cons.mp inside with rfl | inside
        · exact List.mem_cons_self
        · exact List.mem_cons_of_mem _ (induction List.mem_cons_self inside)
      · exact List.mem_cons_of_mem _
          (induction (List.mem_cons_of_mem _ member) inside)

theorem nullFree_ofChars {spelling : List Char} (clean : '\x00' ∉ spelling) :
    (ofChars spelling).NullFree := by
  intro name member inside
  obtain ⟨component, kept, rfl⟩ := List.mem_map.mp member
  rw [String.toList_ofList] at inside
  exact clean (mem_of_mem_component (List.mem_filter.mp kept).1 inside)

theorem NullFree.join {base path : Path} (baseFree : base.NullFree)
    (pathFree : path.NullFree) : (base.join path).NullFree := by
  obtain ⟨anchor, names⟩ := path
  cases anchor with
  | relative => exact List.forall_mem_append.mpr ⟨baseFree, pathFree⟩
  | root => exact pathFree
  | doubleRoot => exact pathFree

theorem NullFree.child {base : Path} {spelling : String} (baseFree : base.NullFree)
    (clean : '\x00' ∉ spelling.toList) : (base.child spelling).NullFree :=
  baseFree.join (nullFree_ofChars clean)

theorem NullFree.parent {path : Path} (nullFree : path.NullFree) : path.parent.NullFree :=
  fun name member => nullFree name (List.dropLast_subset _ member)

/-! A trailing slash adds nothing to a path that has a name. -/

theorem components_ne_nil (spelling : List Char) : components spelling ≠ [] := by
  fun_cases components spelling <;> exact List.cons_ne_nil _ _

theorem components_concat_slash (spelling : List Char) :
    components (spelling ++ ['/']) = components spelling ++ [[]] := by
  induction spelling with
  | nil => rfl
  | cons character rest induction =>
      by_cases isSlash : character = '/'
      · simp only [List.cons_append, components, isSlash, if_true, induction]
      · obtain ⟨head, tail, split⟩ := List.exists_cons_of_ne_nil (components_ne_nil rest)
        simp only [List.cons_append, components, isSlash, if_false, induction, split]

theorem anchorOf_concat_slash {spelling : List Char}
    (named : ∃ character ∈ spelling, character ≠ '/') :
    anchorOf (spelling ++ ['/']) = anchorOf spelling := by
  fun_cases anchorOf spelling with
  | case1 => rfl
  | case2 rest single =>
      cases rest with
      | nil => simp at named
      | cons third rest =>
          have noSlash : third ≠ '/' := fun isSlash => single rest (isSlash ▸ rfl)
          simp [anchorOf, noSlash]
  | case3 rest _ single =>
      cases rest with
      | nil => simp at named
      | cons second rest =>
          have noSlash : second ≠ '/' := fun isSlash => single rest (isSlash ▸ rfl)
          simp [anchorOf, noSlash]
  | case4 _ _ _ relative =>
      cases spelling with
      | nil => simp at named
      | cons first rest =>
          have noSlash : first ≠ '/' := fun isSlash => relative rest (congrArg (· :: rest) isSlash)
          simp [anchorOf, noSlash]

theorem ofChars_concat_slash {spelling : List Char}
    (named : ∃ character ∈ spelling, character ≠ '/') :
    ofChars (spelling ++ ['/']) = ofChars spelling := by
  simp [ofChars, anchorOf_concat_slash named, components_concat_slash]

theorem ofChars_dropTrailingSlashes {spelling : List Char}
    (named : ∃ character ∈ spelling, character ≠ '/') :
    ofChars (dropTrailingSlashes spelling) = ofChars spelling := by
  induction spelling using List.reverseRecOn with
  | nil => rfl
  | append_singleton spelling last induction =>
      by_cases isSlash : last = '/'
      · have namedBefore : ∃ character ∈ spelling, character ≠ '/' := by
          simpa [isSlash] using named
        have dropped : dropTrailingSlashes (spelling ++ [last]) =
            dropTrailingSlashes spelling :=
          List.rdropWhile_concat_pos _ _ _ (by simp [isSlash])
        rw [dropped, induction namedBefore, isSlash, ofChars_concat_slash namedBefore]
      · exact congrArg ofChars (List.rdropWhile_concat_neg _ _ _ (by simp [isSlash]))

/-! Home directories. -/

/-- A home directory is only put in the place of a name that begins with a tilde. -/
theorem expandHome_of_no_tilde {home : Option String} {path : Path}
    (plain : ∀ first names, path = ⟨.relative, first :: names⟩ →
      first.toList.head? ≠ some '~') : path.expandHome home = some path := by
  unfold expandHome
  split
  · rw [if_pos (plain _ _ rfl)]
  · rfl

/-- The directory that a home is spelled as. Nothing but slashes is the root. -/
def home (spelling : String) : Path :=
  if spelling.toList.all (· == '/') then ⟨.root, []⟩ else ofString spelling

/-- The path with the home directory in the place of a first name `~`. -/
def inHome (spelling : String) : Path → Path
  | ⟨.relative, "~" :: names⟩ => (home spelling).join ⟨.relative, names⟩
  | path => path

def InNamedHome (path : Path) : Prop :=
  ∃ first names, path = ⟨.relative, first :: names⟩ ∧ first.toList.head? = some '~' ∧
    first ≠ "~"

theorem expandHome_tilde {spelling : String} (plain : spelling.toList.head? ≠ some '~')
    (names : List String) :
    expandHome (some spelling) ⟨.relative, "~" :: names⟩ =
      some ((home spelling).join ⟨.relative, names⟩) := by
  have isPrefix : dropTrailingSlashes spelling.toList <+: spelling.toList :=
    List.rdropWhile_prefix _ _
  have onlySlashes : dropTrailingSlashes spelling.toList = [] ↔
      spelling.toList.all (· == '/') = true :=
    List.rdropWhile_eq_nil_iff.trans List.all_eq_true.symm
  cases dropped : dropTrailingSlashes spelling.toList with
  | nil =>
      have isRoot : home spelling = ⟨.root, []⟩ := if_pos (onlySlashes.mp dropped)
      simp [expandHome, dropped, isRoot, join]
  | cons first rest =>
      have notOnly : ¬spelling.toList.all (· == '/') = true := by
        simp [← onlySlashes, dropped]
      have named : ∃ character ∈ spelling.toList, character ≠ '/' := by
        simpa using notOnly
      have isHome : home spelling = ofChars (first :: rest) := by
        rw [home, if_neg notOnly, ofString, ← ofChars_dropTrailingSlashes named, dropped]
      have noTilde : first ≠ '~' := by
        rw [dropped] at isPrefix
        obtain ⟨slashes, whole⟩ := isPrefix
        rintro rfl
        exact plain (whole ▸ rfl)
      simp [expandHome, dropped, isHome, noTilde, join]

theorem expandHome_eq_inHome {spelling : String} {path : Path}
    (plain : spelling.toList.head? ≠ some '~') (own : ¬path.InNamedHome) :
    path.expandHome (some spelling) = some (path.inHome spelling) := by
  fun_cases inHome spelling path with
  | case1 names => exact expandHome_tilde plain names
  | case2 path noTilde =>
      refine expandHome_of_no_tilde ?_
      rintro first names rfl tilde
      exact own ⟨first, names, rfl, tilde, fun isTilde => noTilde names (isTilde ▸ rfl)⟩

end PalletTypes.Path

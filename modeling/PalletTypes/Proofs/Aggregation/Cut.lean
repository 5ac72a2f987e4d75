import PalletTypes.Proofs.Aggregation.Accepted
import PalletTypes.Proofs.Aggregation.FailFast
import PalletTypes.Proofs.Aggregation.Result
import PalletTypes.Proofs.Merge.Stacking

/-!
A file cut in two between members of its object. Reading puts members upon one another
as merging puts layers upon one another, so the halves listed one after the other come to
the same as the whole.
-/

namespace PalletTypes.Workspace

open Json Json.Grammar

variable {workspace other : Workspace} {path former latter : Path}

/-- If the whole is loaded, so are its halves, and they denote what it denotes. -/
theorem HoldsObject.halves {first second : List (List Char)} {types : Members}
    (whole : workspace.HoldsObject path (first ++ second))
    (loaded : workspace.loadTypes path = .ok types) :
    ∃ firstPairs secondPairs, MemberPairs first firstPairs ∧
      MemberPairs second secondPairs ∧ types = Ordered.putAll [] (firstPairs ++ secondPairs) := by
  have each := whole.members loaded
  rw [List.forall_mem_append] at each
  obtain ⟨firstPairs, ofFirst⟩ := exists_forall₂ each.1
  obtain ⟨secondPairs, ofSecond⟩ := exists_forall₂ each.2
  refine ⟨firstPairs, secondPairs, ofFirst, ofSecond, ?_⟩
  rw [whole.loadTypes (List.rel_append ofFirst ofSecond)] at loaded
  cases loaded
  rfl

theorem mergeFiles_congr {merge otherMerge : Merge} {paths : List Path}
    (same : ∀ path ∈ paths, other.loadTypes path = workspace.loadTypes path)
    (sameTypes : otherMerge.types = merge.types) :
    (other.mergeFiles otherMerge paths).1 = (workspace.mergeFiles merge paths).1 := by
  induction paths generalizing merge otherMerge with
  | nil => simp only [mergeFiles, sameTypes]
  | cons path paths induction =>
      rw [List.forall_mem_cons] at same
      rw [mergeFiles, mergeFiles, same.1]
      cases workspace.loadTypes path with
      | error failure => rfl
      | ok layer =>
          refine induction same.2 ?_
          simp only [Merge.add, sameTypes]

theorem mergeFiles_cut {merge otherMerge : Merge} {before after : List Path}
    {first second : List (Text × Value)}
    (whole : workspace.loadTypes path = .ok (Ordered.putAll [] (first ++ second)))
    (firstHalf : other.loadTypes former = .ok (Ordered.putAll [] first))
    (secondHalf : other.loadTypes latter = .ok (Ordered.putAll [] second))
    (same : ∀ path ∈ before ++ after, other.loadTypes path = workspace.loadTypes path)
    (sameTypes : otherMerge.types = merge.types)
    (distinct : (Ordered.keys merge.types).Nodup) :
    (other.mergeFiles otherMerge (before ++ former :: latter :: after)).1 =
      (workspace.mergeFiles merge (before ++ path :: after)).1 := by
  induction before generalizing merge otherMerge with
  | nil =>
      simp only [List.nil_append, mergeFiles, firstHalf, secondHalf, whole]
      refine mergeFiles_congr same ?_
      simp only [Merge.add, sameTypes]
      exact (Ordered.putAll_cut first second distinct).symm
  | cons earlier before induction =>
      rw [List.cons_append, List.forall_mem_cons] at same
      rw [List.cons_append, List.cons_append, mergeFiles, mergeFiles, same.1]
      cases workspace.loadTypes earlier with
      | error failure => rfl
      | ok layer =>
          refine induction same.2 ?_ (Ordered.nodup_keys_putAll layer distinct)
          simp only [Merge.add, sameTypes]

theorem plan_result_congr {site : Site} {seeds : Seeds} {root output : Option Path}
    {base place : Path} {pallets others : List String}
    (resolved : site.resolve root output = .ok (base, place))
    (same : (other.collectTypes seeds (base.child palletsDirectoryName) others).result =
      (workspace.collectTypes seeds (base.child palletsDirectoryName) pallets).result) :
    (other.plan site ⟨seeds, root, others, output⟩).result =
      (workspace.plan site ⟨seeds, root, pallets, output⟩).result := by
  simp only [plan, resolved, same]

variable {seeds : Seeds} {directory : Path} {before after : List String}
  {pallet formerPallet latterPallet : String} {first second : List (List Char)}

/-- A pallet whose file is loaded may be cut between any two members of its object into
two pallets listed in its place: the same types are collected in the same order, or the
same failure, and every request that collects them comes to the same content. -/
theorem collectTypes_cut {layer : Members}
    (loaded : workspace.loadTypes (typesPath directory pallet) = .ok layer)
    (whole : workspace.HoldsObject (typesPath directory pallet) (first ++ second))
    (firstHalf : other.HoldsObject (typesPath directory formerPallet) first)
    (secondHalf : other.HoldsObject (typesPath directory latterPallet) second)
    (same : ∀ name ∈ before ++ after, other.readFile (typesPath directory name) =
      workspace.readFile (typesPath directory name)) :
    (other.collectTypes seeds directory
        (before ++ formerPallet :: latterPallet :: after)).result =
      (workspace.collectTypes seeds directory (before ++ pallet :: after)).result ∧
    ∀ site root output base place,
      Site.resolve site root output = .ok (base, place) →
        base.child palletsDirectoryName = directory →
          (other.plan site
              ⟨seeds, root, before ++ formerPallet :: latterPallet :: after, output⟩).result =
            (workspace.plan site ⟨seeds, root, before ++ pallet :: after, output⟩).result := by
  have collected : (other.collectTypes seeds directory
        (before ++ formerPallet :: latterPallet :: after)).result =
      (workspace.collectTypes seeds directory (before ++ pallet :: after)).result := by
    obtain ⟨firstPairs, secondPairs, ofFirst, ofSecond, rfl⟩ := whole.halves loaded
    have sameLoads : ∀ path ∈ before.map (typesPath directory) ++
        after.map (typesPath directory), other.loadTypes path = workspace.loadTypes path := by
      rw [← List.map_append, List.forall_mem_map]
      exact fun name member => loadTypes_congr (same name member)
    have distinct : (Ordered.keys (Merge.ofLayers seeds.layers).types).Nodup := by
      rw [Merge.types_ofLayers]
      exact Ordered.nodup_keys_stack seeds.layers
    simp only [collectTypes, List.map_append, List.map_cons]
    exact mergeFiles_cut loaded (firstHalf.loadTypes ofFirst) (secondHalf.loadTypes ofSecond)
      sameLoads rfl distinct
  refine ⟨collected, ?_⟩
  rintro site root output base place resolved rfl
  exact plan_result_congr resolved collected

/-! A pallet listed twice, with a name that its file has twice, and cut once between the
two members of that name. -/

def sampleHead : List (List Char) :=
  [sampleSpelling 'a' "null".toList, sampleSpelling 'b' "true".toList]

def sampleTail : List (List Char) :=
  [sampleSpelling 'c' "null".toList, sampleSpelling 'a' "false".toList]

def sampleWhole : Workspace :=
  let roles := '{' :: separated [sampleSpelling 'b' "null".toList]
  (empty.saving (sampleFile "roles") (Utf8.encode roles)).saving (sampleFile "posts")
    (Utf8.encode ('{' :: separated (sampleHead ++ sampleTail)))

def sampleHalves : Workspace :=
  (sampleWhole.saving (sampleFile "head") (Utf8.encode ('{' :: separated sampleHead))).saving
    (sampleFile "tail") (Utf8.encode ('{' :: separated sampleTail))

theorem memberPairs_sampleHead :
    MemberPairs sampleHead [([.scalar 'a'], .null), ([.scalar 'b'], .bool true)] :=
  .cons (member_sampleSpelling (by decide) .null)
    (.cons (member_sampleSpelling (by decide) .true) .nil)

theorem memberPairs_sampleTail :
    MemberPairs sampleTail [([.scalar 'c'], .null), ([.scalar 'a'], .bool false)] :=
  .cons (member_sampleSpelling (by decide) .null)
    (.cons (member_sampleSpelling (by decide) .false) .nil)

theorem collectTypes_cut_sampleHalves :
    (sampleHalves.collectTypes .standard sampleDirectory
        ["roles", "head", "tail", "posts"]).result =
      (sampleWhole.collectTypes .standard sampleDirectory
        ["roles", "posts", "posts"]).result ∧
    (sampleHalves.plan sampleSite
        ⟨.standard, none, ["roles", "head", "tail", "posts"], none⟩).result =
      (sampleWhole.plan sampleSite
        ⟨.standard, none, ["roles", "posts", "posts"], none⟩).result := by
  have both := List.rel_append memberPairs_sampleHead memberPairs_sampleTail
  have whole : sampleWhole.HoldsObject (sampleFile "posts") (sampleHead ++ sampleTail) :=
    holdsObject_of_separated rfl both
  have firstHalf : sampleHalves.HoldsObject (sampleFile "head") sampleHead :=
    holdsObject_of_separated rfl memberPairs_sampleHead
  have secondHalf : sampleHalves.HoldsObject (sampleFile "tail") sampleTail :=
    holdsObject_of_separated rfl memberPairs_sampleTail
  have same : ∀ name ∈ ["roles"] ++ ["posts"],
      sampleHalves.readFile (sampleFile name) = sampleWhole.readFile (sampleFile name) := by
    decide
  obtain ⟨collected, planned⟩ :=
    collectTypes_cut (whole.loadTypes both) whole firstHalf secondHalf same
  exact ⟨collected, planned sampleSite none none _ _ rfl rfl⟩

end PalletTypes.Workspace

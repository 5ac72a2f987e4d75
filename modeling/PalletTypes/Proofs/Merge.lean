import Mathlib.Data.List.Forall2
import Mathlib.Data.List.Induction
import PalletTypes.Merge
import PalletTypes.Proofs.Ordered

/-!
Maps put upon one another. A key holds what the last layer that has it gives,
and stands where the first one that has it brings it in. A layer that the whole
takes the place of does not change the whole.
-/

namespace PalletTypes.Ordered

variable {κ ν : Type} [DecidableEq κ]

/-- Maps put upon one another, the first one lowest. -/
def stack (layers : List (List (κ × ν))) : List (κ × ν) :=
  layers.foldl putAll []

/-- The layer in which a key first occurs, counted from zero, and its place among
the keys of that layer. -/
def firstPlace (key : κ) : List (List (κ × ν)) → Nat × Nat
  | [] => (0, 0)
  | layer :: layers =>
      if key ∈ keys layer then (0, (keys layer).idxOf key)
      else ((firstPlace key layers).1 + 1, (firstPlace key layers).2)

theorem stack_append_singleton (layers : List (List (κ × ν)))
    (layer : List (κ × ν)) :
    stack (layers ++ [layer]) = putAll (stack layers) layer := by
  simp [stack]

theorem nodup_keys_foldl_putAll {entries : List (κ × ν)}
    (layers : List (List (κ × ν))) (distinct : (keys entries).Nodup) :
    (keys (layers.foldl putAll entries)).Nodup := by
  induction layers generalizing entries with
  | nil => exact distinct
  | cons layer layers induction => exact induction (nodup_keys_putAll layer distinct)

theorem nodup_keys_stack (layers : List (List (κ × ν))) :
    (keys (stack layers)).Nodup :=
  nodup_keys_foldl_putAll layers nodup_keys_nil

theorem mem_stack {layers : List (List (κ × ν))} {entry : κ × ν}
    (member : entry ∈ stack layers) : ∃ layer ∈ layers, entry ∈ layer := by
  induction layers using List.reverseRecOn with
  | nil => cases member
  | append_singleton layers layer induction =>
      rw [stack_append_singleton] at member
      rcases mem_putAll member with below | added
      · obtain ⟨lower, inLayers, held⟩ := induction below
        exact ⟨lower, List.mem_append_left _ inLayers, held⟩
      · exact ⟨layer, by simp, added⟩

theorem keys_foldl_putAll {entries : List (κ × ν)} (layers : List (List (κ × ν)))
    (distinct : (keys entries).Nodup) :
    keys (layers.foldl putAll entries) =
      (keys entries ++ layers.flatMap keys).eraseDups := by
  induction layers generalizing entries with
  | nil => simp [eraseDups_eq_self distinct]
  | cons layer layers induction =>
      rw [List.foldl_cons, induction (nodup_keys_putAll layer distinct),
        keys_putAll layer distinct, List.flatMap_cons, ← List.append_assoc,
        List.eraseDups_append, @List.eraseDups_append _ _ _ (keys entries ++ keys layer),
        eraseDups_eq_self (keys_putAll layer distinct ▸
          nodup_keys_putAll layer distinct)]
      congr 2
      simp [List.removeAll, List.mem_eraseDups]

theorem keys_stack (layers : List (List (κ × ν))) :
    keys (stack layers) = (layers.flatMap keys).eraseDups :=
  keys_foldl_putAll layers nodup_keys_nil

theorem mem_keys_stack {key : κ} {layers : List (List (κ × ν))} :
    key ∈ keys (stack layers) ↔ ∃ layer ∈ layers, key ∈ keys layer := by
  rw [keys_stack, List.mem_eraseDups, List.mem_flatMap]

theorem lookup?_foldl_putAll (key : κ) (entries : List (κ × ν))
    {layers : List (List (κ × ν))} (distinct : ∀ layer ∈ layers, (keys layer).Nodup) :
    lookup? key (layers.foldl putAll entries) =
      (layers.reverse.findSome? (lookup? key)).or (lookup? key entries) := by
  induction layers using List.reverseRecOn with
  | nil => rfl
  | append_singleton layers layer induction =>
      rw [List.forall_mem_append, List.forall_mem_singleton] at distinct
      rw [List.foldl_append, List.foldl_cons, List.foldl_nil, lookup?_putAll key _ distinct.2,
        induction distinct.1, List.reverse_append]
      cases found : lookup? key layer <;> simp [found]

theorem lookup?_stack (key : κ) {layers : List (List (κ × ν))}
    (distinct : ∀ layer ∈ layers, (keys layer).Nodup) :
    lookup? key (stack layers) = layers.reverse.findSome? (lookup? key) := by
  rw [stack, lookup?_foldl_putAll key [] distinct]
  exact Option.or_none

/-! The order of the keys by the place where each one first occurs. -/

theorem eraseDups_pairwise_idxOf (names : List κ) :
    names.eraseDups.Pairwise fun first second =>
      names.idxOf first < names.idxOf second := by
  induction names using List.reverseRecOn with
  | nil => simp
  | append_singleton names name induction =>
      have kept : names.eraseDups.Pairwise fun first second =>
          (names ++ [name]).idxOf first < (names ++ [name]).idxOf second := by
        refine induction.imp_of_mem fun {first second} inFirst inSecond before => ?_
        rw [List.mem_eraseDups] at inFirst inSecond
        rwa [List.idxOf_append, if_pos inFirst, List.idxOf_append, if_pos inSecond]
      rw [List.eraseDups_append, List.cons_removeAll]
      by_cases present : name ∈ names
      · simpa [present] using kept
      · simp only [List.contains_eq_mem, present, decide_false, if_true]
        refine List.pairwise_append.mpr
          ⟨kept, by simp [List.removeAll, List.eraseDups_cons], ?_⟩
        intro first inFirst second inSecond
        have isLast : second = name := by simpa [List.removeAll] using inSecond
        rw [List.mem_eraseDups] at inFirst
        rw [isLast, List.idxOf_append, if_pos inFirst, List.idxOf_append,
          if_neg present]
        exact Nat.lt_add_left _ (List.idxOf_lt_length_of_mem inFirst)

theorem firstPlace_lt_of_idxOf_lt {layers : List (List (κ × ν))} {first second : κ}
    (inLayers : second ∈ layers.flatMap keys)
    (before : (layers.flatMap keys).idxOf first < (layers.flatMap keys).idxOf second) :
    Prod.Lex (· < ·) (· < ·) (firstPlace first layers)
      (firstPlace second layers) := by
  induction layers with
  | nil => cases inLayers
  | cons layer layers induction =>
      rw [List.flatMap_cons, List.idxOf_append, List.idxOf_append] at before
      rw [List.flatMap_cons, List.mem_append] at inLayers
      by_cases inFirst : first ∈ keys layer <;>
        by_cases inSecond : second ∈ keys layer <;>
          simp only [inFirst, inSecond, if_true, if_false, firstPlace] at before ⊢
      · exact Prod.Lex.right 0 before
      · exact Prod.Lex.left _ _ (Nat.succ_pos _)
      · have bound := List.idxOf_lt_length_of_mem inSecond
        omega
      · have later := induction (inLayers.resolve_left inSecond) (by omega)
        rcases Prod.lex_def.mp later with less | ⟨same, less⟩
        · exact Prod.Lex.left _ _ (Nat.succ_lt_succ less)
        · rw [same]
          exact Prod.Lex.right _ less

/-- The keys stand in the order of the layers in which they first occur, and
those of one layer in its order. -/
theorem keys_stack_pairwise (layers : List (List (κ × ν))) :
    (keys (stack layers)).Pairwise fun first second =>
      Prod.Lex (· < ·) (· < ·) (firstPlace first layers)
        (firstPlace second layers) := by
  rw [keys_stack]
  refine (eraseDups_pairwise_idxOf _).imp_of_mem fun _ inSecond before => ?_
  exact firstPlace_lt_of_idxOf_lt (List.mem_eraseDups.mp inSecond) before

/-! The whole in the place of some of its layers. -/

theorem eraseDups_append_of_subset {names added : List κ} (distinct : names.Nodup)
    (known : ∀ name ∈ added, name ∈ names) :
    (names ++ added).eraseDups = names := by
  have none : added.removeAll names = [] := by
    simpa [List.removeAll] using known
  rw [List.eraseDups_append, none, eraseDups_eq_self distinct]
  exact List.append_nil names

theorem eraseDups_append_of_start {start names : List κ} (distinct : names.Nodup)
    (isStart : start <+: names) : (start ++ names).eraseDups = names := by
  obtain ⟨later, rfl⟩ := isStart
  rw [List.nodup_append] at distinct
  have remaining : (start ++ later).removeAll start = later := by
    rw [List.removeAll, List.filter_append, List.filter_eq_nil_iff.mpr (by simp),
      List.nil_append, List.filter_eq_self]
    intro name member
    have absent : name ∉ start := fun early =>
      distinct.2.2 name early name member rfl
    simpa using absent
  rw [List.eraseDups_append, remaining, eraseDups_eq_self distinct.1,
    eraseDups_eq_self distinct.2.1]

/-- Until the whole first takes a layer's place the keys are those that were
there, a start of all keys; from then on they are all keys. -/
theorem keys_foldl_putAll_of_replaced {whole : List (κ × ν)}
    {layers others : List (List (κ × ν))}
    (replaced : List.Forall₂ (fun layer other => other = layer ∨ other = whole)
      layers others)
    {entries otherEntries : List (κ × ν)} (distinct : (keys entries).Nodup)
    (distinctOther : (keys otherEntries).Nodup)
    (all : keys (layers.foldl putAll entries) = keys whole)
    (start : keys otherEntries = keys entries ∨ keys otherEntries = keys whole) :
    keys (others.foldl putAll otherEntries) = keys whole := by
  induction replaced generalizing entries otherEntries with
  | nil => exact start.elim (fun same => same.trans all) id
  | @cons layer other layers others choice _ induction =>
      have allKeys := keys_foldl_putAll (layer :: layers) distinct
      rw [all] at allKeys
      have distinctWhole : (keys whole).Nodup :=
        all ▸ nodup_keys_foldl_putAll (layer :: layers) distinct
      have isStart : keys entries <+: keys whole := by
        rw [allKeys, List.eraseDups_append, eraseDups_eq_self distinct]
        exact List.prefix_append _ _
      have known : ∀ name ∈ keys layer, name ∈ keys whole := by
        intro name member
        simp [allKeys, List.mem_eraseDups, member]
      refine induction (nodup_keys_putAll layer distinct)
        (nodup_keys_putAll other distinctOther) all ?_
      rw [keys_putAll other distinctOther, keys_putAll layer distinct]
      rcases choice with rfl | rfl
      · rcases start with same | same
        · exact .inl (by rw [same])
        · exact .inr (by rw [same, eraseDups_append_of_subset distinctWhole known])
      · refine .inr (eraseDups_append_of_start distinctWhole ?_)
        rcases start with same | same
        · exact same ▸ isStart
        · exact same ▸ List.prefix_refl _

theorem findSome?_of_replaced {layers others : List (List (κ × ν))} {key : κ}
    {held : Option ν}
    (replaced : List.Forall₂ (fun layer other =>
      other = layer ∨ lookup? key other = held) layers others)
    (found : layers.findSome? (lookup? key) = held) :
    others.findSome? (lookup? key) = held := by
  induction replaced with
  | nil => exact found
  | @cons layer other layers others choice _ induction =>
      rw [List.findSome?_cons] at found ⊢
      rcases choice with rfl | same
      · cases here : lookup? key other with
        | none =>
            rw [here] at found
            exact induction found
        | some value => rwa [here] at found
      · rw [same]
        cases held with
        | none =>
            cases here : lookup? key layer with
            | none =>
                rw [here] at found
                exact induction found
            | some value => simp [here] at found
        | some value => rfl

omit [DecidableEq κ] in
theorem forall_mem_of_replaced {whole : List (κ × ν)}
    {p : List (κ × ν) → Prop} {layers others : List (List (κ × ν))}
    (replaced : List.Forall₂ (fun layer other => other = layer ∨ other = whole)
      layers others)
    (held : ∀ layer ∈ layers, p layer) (heldWhole : p whole) :
    ∀ other ∈ others, p other := by
  induction replaced with
  | nil => exact held
  | cons choice _ induction =>
      rw [List.forall_mem_cons] at held ⊢
      refine ⟨?_, induction held.2⟩
      rcases choice with rfl | rfl
      · exact held.1
      · exact heldWhole

/-- Putting the whole in the place of any of its layers gives the whole again. -/
theorem stack_eq_of_replaced {layers others : List (List (κ × ν))}
    (distinct : ∀ layer ∈ layers, (keys layer).Nodup)
    (replaced : List.Forall₂ (fun layer other =>
      other = layer ∨ other = stack layers) layers others) :
    stack others = stack layers := by
  have distinctOthers : ∀ other ∈ others, (keys other).Nodup :=
    forall_mem_of_replaced replaced distinct (nodup_keys_stack layers)
  refine ext (nodup_keys_stack others) ?_ fun key => ?_
  · exact keys_foldl_putAll_of_replaced replaced nodup_keys_nil nodup_keys_nil rfl
      (.inl rfl)
  · rw [lookup?_stack key distinctOthers]
    have sameOrHeld := replaced.imp fun layer other choice =>
      choice.imp_right fun same => congrArg (lookup? key) same
    exact findSome?_of_replaced (List.forall₂_reverse_iff.mpr sameOrHeld)
      (lookup?_stack key distinct).symm

end PalletTypes.Ordered

namespace PalletTypes.Merge

theorem types_foldl_add (merge : Merge) (layers : List Json.Members) :
    (layers.foldl add merge).types = layers.foldl Ordered.putAll merge.types := by
  induction layers generalizing merge with
  | nil => rfl
  | cons layer layers induction => exact induction (merge.add layer)

theorem types_ofLayers (layers : List Json.Members) :
    (ofLayers layers).types = Ordered.stack layers :=
  types_foldl_add empty layers

end PalletTypes.Merge

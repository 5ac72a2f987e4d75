import Mathlib.Data.List.Nodup
import PalletTypes.Ordered

/-!
Laws of ordered maps. Putting is seen through two views, what each key holds and
in which order the keys stand; two maps that agree in both are equal.
-/

namespace PalletTypes.Ordered

variable {κ ν : Type}

@[simp] theorem keys_nil : keys ([] : List (κ × ν)) = [] := rfl

@[simp] theorem keys_cons (entry : κ × ν) (entries : List (κ × ν)) :
    keys (entry :: entries) = entry.1 :: keys entries := rfl

theorem nodup_keys_nil : (keys ([] : List (κ × ν))).Nodup := List.nodup_nil

variable [DecidableEq κ]

theorem lookup?_put (key other : κ) (value : ν) (entries : List (κ × ν)) :
    lookup? other (put key value entries) =
      if key = other then some value else lookup? other entries := by
  by_cases same : key = other
  · rw [if_pos same, ← same, lookup?_put_self]
  · rw [if_neg same, lookup?_put_ne value entries (Ne.symm same)]

theorem lookup?_eq_none_iff {key : κ} {entries : List (κ × ν)} :
    lookup? key entries = none ↔ key ∉ keys entries := by
  induction entries with
  | nil => simp [lookup?]
  | cons entry rest induction =>
      by_cases same : entry.1 = key
      · simp [lookup?, same]
      · simp [lookup?, same, induction, Ne.symm same]

theorem lookup?_isSome_iff {key : κ} {entries : List (κ × ν)} :
    (lookup? key entries).isSome ↔ key ∈ keys entries := by
  rw [Option.isSome_iff_ne_none, ne_eq, lookup?_eq_none_iff, not_not]

theorem mem_iff_lookup? {entries : List (κ × ν)} (distinct : (keys entries).Nodup) {key : κ}
    {value : ν} : (key, value) ∈ entries ↔ lookup? key entries = some value := by
  induction entries with
  | nil => simp [lookup?]
  | cons entry entries induction =>
      obtain ⟨other, held⟩ := entry
      rw [keys_cons, List.nodup_cons] at distinct
      by_cases same : other = key
      · have absent : (key, value) ∉ entries := fun member =>
          distinct.1 (List.mem_map.mpr ⟨(key, value), member, same.symm⟩)
        simp [lookup?, same, absent, eq_comm]
      · simp [lookup?, same, Ne.symm same, induction distinct.2]

theorem lookup?_append (key : κ) (first second : List (κ × ν)) :
    lookup? key (first ++ second) = (lookup? key first).or (lookup? key second) := by
  induction first with
  | nil => rfl
  | cons entry rest induction =>
      by_cases same : entry.1 = key
      · simp [lookup?, same]
      · simp [lookup?, same, induction]

theorem keys_put (key : κ) (value : ν) (entries : List (κ × ν)) :
    keys (put key value entries) =
      if key ∈ keys entries then keys entries else keys entries ++ [key] := by
  induction entries with
  | nil => rfl
  | cons entry rest induction =>
      by_cases same : entry.1 = key
      · simp [put, same]
      · simp only [put, same, if_false, keys_cons, induction, List.mem_cons,
          Ne.symm same, false_or]
        split <;> rfl

theorem nodup_keys_put (key : κ) (value : ν) {entries : List (κ × ν)}
    (distinct : (keys entries).Nodup) : (keys (put key value entries)).Nodup := by
  rw [keys_put]
  split
  · exact distinct
  · rename_i absent
    exact List.nodup_append.mpr ⟨distinct, List.nodup_singleton key, by
      intro other member last isKey same
      rw [List.mem_singleton] at isKey
      exact absent (isKey ▸ same ▸ member)⟩

theorem mem_put {key : κ} {value : ν} {entries : List (κ × ν)} {entry : κ × ν}
    (member : entry ∈ put key value entries) :
    entry = (key, value) ∨ entry ∈ entries := by
  induction entries with
  | nil => exact .inl (List.mem_singleton.mp member)
  | cons first rest induction =>
      by_cases same : first.1 = key
      · simp only [put, same, if_true, List.mem_cons] at member ⊢
        exact member.imp_right .inr
      · simp only [put, same, if_false, List.mem_cons] at member ⊢
        rcases member with isFirst | member
        · exact .inr (.inl isFirst)
        · exact (induction member).imp_right .inr

theorem put_eq_self {key : κ} {value : ν} {entries : List (κ × ν)}
    (found : lookup? key entries = some value) : put key value entries = entries := by
  induction entries with
  | nil => simp [lookup?] at found
  | cons entry rest induction =>
      obtain ⟨other, held⟩ := entry
      by_cases same : other = key
      · simp only [lookup?, same, if_true, Option.some.injEq] at found
        simp only [put, same, found, if_true]
      · simp only [lookup?, same, if_false] at found
        simp only [put, same, if_false, induction found]

theorem ext {first second : List (κ × ν)} (distinct : (keys first).Nodup)
    (sameKeys : keys first = keys second)
    (sameValues : ∀ key, lookup? key first = lookup? key second) :
    first = second := by
  induction first generalizing second with
  | nil => exact (List.map_eq_nil_iff.mp sameKeys.symm).symm
  | cons entry rest induction =>
      cases second with
      | nil => simp at sameKeys
      | cons other others =>
          obtain ⟨key, value⟩ := entry
          obtain ⟨otherKey, otherValue⟩ := other
          simp only [keys_cons, List.cons.injEq, List.nodup_cons] at sameKeys distinct
          obtain ⟨rfl, sameRest⟩ := sameKeys
          have sameHere := sameValues key
          simp only [lookup?, if_true, Option.some.injEq] at sameHere
          have equalRest : rest = others := by
            refine induction distinct.2 sameRest fun candidate => ?_
            by_cases isKey : key = candidate
            · rw [← isKey, lookup?_eq_none_iff.mpr distinct.1,
                lookup?_eq_none_iff.mpr (sameRest ▸ distinct.1)]
            · simpa [lookup?, isKey] using sameValues candidate
          rw [sameHere, equalRest]

@[simp] theorem putAll_nil (entries : List (κ × ν)) : putAll entries [] = entries :=
  rfl

@[simp] theorem putAll_cons (entries : List (κ × ν)) (key : κ) (value : ν)
    (added : List (κ × ν)) :
    putAll entries ((key, value) :: added) = putAll (put key value entries) added :=
  rfl

theorem nodup_keys_putAll {entries : List (κ × ν)} (added : List (κ × ν))
    (distinct : (keys entries).Nodup) : (keys (putAll entries added)).Nodup := by
  induction added generalizing entries with
  | nil => exact distinct
  | cons entry rest induction => exact induction (nodup_keys_put _ _ distinct)

theorem mem_putAll {entries added : List (κ × ν)} {entry : κ × ν}
    (member : entry ∈ putAll entries added) : entry ∈ entries ∨ entry ∈ added := by
  induction added generalizing entries with
  | nil => exact .inl member
  | cons first rest induction =>
      rcases induction member with inPut | inRest
      · rcases mem_put inPut with isFirst | inEntries
        · exact .inr (by simp [isFirst])
        · exact .inl inEntries
      · exact .inr (List.mem_cons_of_mem _ inRest)

theorem lookup?_putAll (key : κ) (entries : List (κ × ν)) {added : List (κ × ν)}
    (distinct : (keys added).Nodup) :
    lookup? key (putAll entries added) =
      (lookup? key added).or (lookup? key entries) := by
  induction added generalizing entries with
  | nil => rfl
  | cons entry rest induction =>
      obtain ⟨other, value⟩ := entry
      simp only [keys_cons, List.nodup_cons] at distinct
      rw [putAll_cons, induction _ distinct.2, lookup?_put]
      by_cases same : other = key
      · rw [← same, lookup?_eq_none_iff.mpr distinct.1]
        simp [lookup?]
      · simp [lookup?, same]

theorem eraseDups_eq_self {names : List κ} (distinct : names.Nodup) :
    names.eraseDups = names := by
  induction names with
  | nil => rfl
  | cons name rest induction =>
      rw [List.nodup_cons] at distinct
      have kept : (rest.filter fun other => !other == name) = rest := by
        refine List.filter_eq_self.mpr fun other member => ?_
        have different : other ≠ name := fun same => distinct.1 (same ▸ member)
        simpa using different
      rw [List.eraseDups_cons, kept, induction distinct.2]

theorem keys_putAll {entries : List (κ × ν)} (added : List (κ × ν))
    (distinct : (keys entries).Nodup) :
    keys (putAll entries added) = (keys entries ++ keys added).eraseDups := by
  induction added generalizing entries with
  | nil => simp [eraseDups_eq_self distinct]
  | cons entry rest induction =>
      obtain ⟨key, value⟩ := entry
      rw [putAll_cons, induction (nodup_keys_put key value distinct), keys_put]
      split
      · rename_i present
        rw [List.eraseDups_append, keys_cons, List.eraseDups_append,
          List.cons_removeAll]
        simp [present]
      · simp

theorem putAll_nil_eq_self {entries : List (κ × ν)}
    (distinct : (keys entries).Nodup) : putAll [] entries = entries := by
  refine ext (nodup_keys_putAll entries nodup_keys_nil) ?_ fun key => ?_
  · rw [keys_putAll entries nodup_keys_nil, keys_nil, List.nil_append,
      eraseDups_eq_self distinct]
  · rw [lookup?_putAll key [] distinct]
    simp [lookup?]

end PalletTypes.Ordered

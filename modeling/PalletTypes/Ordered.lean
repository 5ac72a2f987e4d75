/-!
Ordered maps: lists of pairs, a key at most once, in the order in which the keys
came. Putting a known key keeps its place and replaces its value.
-/

namespace PalletTypes.Ordered

variable {κ ν : Type} [DecidableEq κ]

def keys (entries : List (κ × ν)) : List κ :=
  entries.map Prod.fst

def lookup? (key : κ) : List (κ × ν) → Option ν
  | [] => none
  | (other, value) :: rest => if other = key then some value else lookup? key rest

def put (key : κ) (value : ν) : List (κ × ν) → List (κ × ν)
  | [] => [(key, value)]
  | (other, held) :: rest =>
      if other = key then (key, value) :: rest
      else (other, held) :: put key value rest

def putAll (entries added : List (κ × ν)) : List (κ × ν) :=
  added.foldl (fun entries (key, value) => put key value entries) entries

theorem lookup?_put_self (key : κ) (value : ν) (entries : List (κ × ν)) :
    lookup? key (put key value entries) = some value := by
  induction entries with
  | nil => simp [put, lookup?]
  | cons entry rest induction =>
      by_cases same : entry.1 = key <;> simp [put, lookup?, same, induction]

theorem lookup?_put_ne {key other : κ} (value : ν) (entries : List (κ × ν))
    (different : other ≠ key) :
    lookup? other (put key value entries) = lookup? other entries := by
  induction entries with
  | nil => simp [put, lookup?, different.symm]
  | cons entry rest induction =>
      by_cases same : entry.1 = key
      · simp [put, lookup?, same, different.symm]
      · simp [put, lookup?, same, induction]

end PalletTypes.Ordered

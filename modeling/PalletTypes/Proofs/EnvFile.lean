import PalletTypes.EnvFile
import PalletTypes.Proofs.Ordered

/-!
What loading an environment file does to the variables. The environment goes before the
file, and of the file only what it assigns in the end is seen.
-/

namespace PalletTypes.EnvFile

variable {environment : Environment}

theorem nodup_keys_assigned (environment : Environment) (text : List Char) :
    (Ordered.keys (assigned environment text)).Nodup := by
  refine List.foldlRecOn (motive := fun earlier => (Ordered.keys earlier).Nodup) _ _
    Ordered.nodup_keys_nil ?_
  intro earlier distinct binding _
  exact Ordered.nodup_keys_put _ _ distinct

/-- A variable that can be set. -/
structure Settable (name : String) (value : Option String) : Prop where
  noEquals : '=' ∉ name.toList
  nullFreeName : '\x00' ∉ name.toList
  nullFreeValue : ∀ text, value = some text → '\x00' ∉ text.toList

theorem define_eq_ok {name value : String} (settable : Settable name (some value)) :
    define environment name value = .ok (environment ++ [(name, value)]) := by
  have nullFree : ¬('\x00' ∈ name.toList ∨ '\x00' ∈ value.toList) :=
    not_or.mpr ⟨settable.nullFreeName, settable.nullFreeValue value rfl⟩
  rw [define, if_neg nullFree, if_neg settable.noEquals]

/-- What one assigned variable adds: itself, if it is not there and has a value. -/
def added (environment : Environment) (name : String) (value : Option String) :
    Environment :=
  match environment.get? name with
  | some _ => []
  | none => value.toList.map fun text => (name, text)

/-- A variable that is there is never set, so it need not be one that can be. -/
theorem extend_cons {name : String} {value : Option String} (rest : Assigned)
    (settable : environment.get? name = none → Settable name value) :
    extend environment ((name, value) :: rest) =
      extend (environment ++ added environment name value) rest := by
  cases known : environment.get? name with
  | some held => simp only [extend, added, known, List.append_nil]
  | none =>
      cases value with
      | none => simp only [extend, added, known, Option.toList_none, List.map_nil,
          List.append_nil]
      | some text =>
          simp only [extend, added, known, define_eq_ok (settable known), Option.toList_some,
            List.map_cons, List.map_nil]
          rfl

theorem get?_append (environment others : Environment) (name : String) :
    Environment.get? (environment ++ others) name =
      (environment.get? name).or (others.get? name) :=
  Ordered.lookup?_append name environment others

theorem get?_append_added (name other : String) (value : Option String) :
    Environment.get? (environment ++ added environment name value) other =
      (environment.get? other).or (if name = other then value else none) := by
  rw [get?_append, added]
  cases known : environment.get? name with
  | some held =>
      by_cases same : name = other
      · rw [← same, known, Option.some_or, Option.some_or]
      · rw [if_neg same]
        rfl
  | none => cases value <;> simp [Environment.get?, Ordered.lookup?]

theorem get?_eq_none_of_added {name other : String} {value : Option String}
    (absent : Environment.get? (environment ++ added environment name value) other = none) :
    environment.get? other = none := by
  rw [get?_append_added, Option.or_eq_none_iff] at absent
  exact absent.1

theorem extend_eq_ok {assigned : Assigned} (distinct : (Ordered.keys assigned).Nodup)
    (settable : ∀ entry ∈ assigned, environment.get? entry.1 = none →
      Settable entry.1 entry.2) :
    ∃ after, extend environment assigned = .ok after ∧ ∀ name, after.get? name =
      (environment.get? name).or (Ordered.lookup? name assigned).join := by
  induction assigned generalizing environment with
  | nil => exact ⟨environment, rfl, fun name => (Option.or_none).symm⟩
  | cons entry rest induction =>
      obtain ⟨here, value⟩ := entry
      rw [Ordered.keys_cons, List.nodup_cons] at distinct
      rw [List.forall_mem_cons] at settable
      obtain ⟨after, extended, holds⟩ :=
        @induction (environment ++ added environment here value) distinct.2
          fun entry member absent => settable.2 entry member (get?_eq_none_of_added absent)
      refine ⟨after, (extend_cons rest settable.1).trans extended, fun name => ?_⟩
      rw [holds, get?_append_added, Option.or_assoc, Ordered.lookup?]
      by_cases same : here = name
      · have once : Ordered.lookup? name rest = none :=
          same ▸ Ordered.lookup?_eq_none_iff.mpr distinct.1
        rw [if_pos same, if_pos same, once, Option.join_none, Option.or_none, Option.join_some]
      · rw [if_neg same, if_neg same, Option.none_or]

theorem extend_eq_nullByte {assigned : Assigned} (distinct : (Ordered.keys assigned).Nodup)
    (named : ∀ entry ∈ assigned, '=' ∉ entry.1.toList ∧ '\x00' ∉ entry.1.toList)
    {name text : String} (member : (name, some text) ∈ assigned)
    (absent : environment.get? name = none) (null : '\x00' ∈ text.toList) :
    extend environment assigned = .error .nullByte := by
  induction assigned generalizing environment with
  | nil => cases member
  | cons entry rest induction =>
      obtain ⟨here, value⟩ := entry
      rw [Ordered.keys_cons, List.nodup_cons] at distinct
      rw [List.forall_mem_cons] at named
      -- Either this variable stops the loading already, or the later one is still not there.
      by_cases stops : environment.get? here = none ∧
        ∃ text, value = some text ∧ '\x00' ∈ text.toList
      · obtain ⟨absentHere, text, rfl, nullHere⟩ := stops
        simp only [extend, absentHere, define, if_pos (Or.inr nullHere)]
        rfl
      · have settable (absentHere : environment.get? here = none) : Settable here value :=
          ⟨named.1.1, named.1.2, fun text same nullHere =>
            stops ⟨absentHere, text, same, nullHere⟩⟩
        obtain same | member := List.mem_cons.mp member
        · cases same
          exact absurd ⟨absent, text, rfl, null⟩ stops
        · have different : here ≠ name := by
            rintro rfl
            exact distinct.1 (List.mem_map.mpr ⟨_, member, rfl⟩)
          rw [extend_cons rest settable]
          refine induction distinct.2 named.2 member ?_
          rw [get?_append_added, absent, if_neg different]
          rfl

theorem load_eq_extend {text : List Char}
    (enabled : environment.get? disablingVariable = none) :
    load environment text = extend environment (assigned environment text) := by
  have notDisabled : isDisabled environment = false := by
    rw [isDisabled, enabled]
  rw [load, notDisabled]
  rfl

theorem load_eq_ok {text : List Char}
    (enabled : environment.get? disablingVariable = none)
    (settable : ∀ entry ∈ assigned environment text, environment.get? entry.1 = none →
      Settable entry.1 entry.2) :
    ∃ after, load environment text = .ok after ∧ ∀ name, after.get? name =
      (environment.get? name).or (Ordered.lookup? name (assigned environment text)).join := by
  rw [load_eq_extend enabled]
  exact extend_eq_ok (nodup_keys_assigned environment text) settable

end PalletTypes.EnvFile

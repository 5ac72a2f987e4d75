import PalletTypes.Proofs.EnvFile
import PalletTypes.Proofs.EnvFile.Expansion
import PalletTypes.Proofs.EnvFile.Lines

/-!
The assignments of a file, evaluated one after another, and that loading the file comes to
just that.
-/

namespace PalletTypes.EnvFile

variable {environment : Environment} {history last : History} {assignments : List Assignment}

/-- Each assignment adds to the history what its value expands to by then. -/
inductive Evaluates (environment : Environment) :
    History → List Assignment → History → Prop
  | nil {history : History} : Evaluates environment history [] history
  | cons {history last : History} {name value : String} {expanded : List Char}
      {rest : List Assignment} :
      Expands environment history value.toList expanded →
        Evaluates environment ((name, String.ofList expanded) :: history) rest last →
          Evaluates environment history ((name, value) :: rest) last

def assignedAfter (environment : Environment) (earlier : Assigned)
    (assignments : List Assignment) : Assigned :=
  (assignments.map Assignment.binding).foldl (assign environment) earlier

theorem agree_put {earlier : Assigned} (agree : Agree history earlier) (name value : String) :
    Agree ((name, value) :: history) (Ordered.put name (some value) earlier) := by
  intro other
  rw [Ordered.lookup?_put, Ordered.lookup?]
  split
  · rfl
  · exact agree other

theorem exists_evaluates (environment : Environment) {earlier : Assigned}
    (agree : Agree history earlier) (assignments : List Assignment) : ∃ last,
      (∀ other, Evaluates environment history assignments other ↔ other = last) ∧
        Agree last (assignedAfter environment earlier assignments) := by
  induction assignments generalizing history earlier with
  | nil =>
      refine ⟨history, fun other => ⟨?_, ?_⟩, agree⟩
      · rintro ⟨⟩
        rfl
      · rintro rfl
        exact .nil
  | cons assignment rest induction =>
      obtain ⟨name, value⟩ := assignment
      obtain ⟨last, unique, agrees⟩ :=
        induction (agree_put agree name (resolve environment earlier value))
      refine ⟨last, fun other => ⟨?_, ?_⟩, agrees⟩
      · rintro (_ | ⟨expands, evaluates⟩)
        rw [← (expands_iff agree).mp expands, String.ofList_toList] at evaluates
        exact (unique other).mp evaluates
      · rintro rfl
        refine .cons ((expands_iff agree).mpr rfl) ?_
        rw [String.ofList_toList]
        exact (unique other).mpr rfl

section Files

open Newline

variable {text : List Char}

theorem agree_nil : Agree [] [] :=
  fun _ => rfl

theorem assigned_of_file (isFile : File Quoted text assignments) :
    assigned environment (normalize text) = assignedAfter environment [] assignments :=
  congrArg (List.foldl (assign environment) []) (bindings_of_file isFile)

theorem Line.isName {line : List Char} {assignment : Assignment}
    (isLine : Line Quoted line (some assignment)) : IsName assignment.1.toList := by
  cases isLine with
  | assignment _ _ isName =>
      rw [String.toList_ofList]
      exact isName

theorem isName_of_file (isFile : File Quoted text assignments) :
    ∀ assignment ∈ assignments, IsName assignment.1.toList := by
  have ofLine {line : List Char} {spelled : Option Assignment}
      (isLine : Line Quoted line spelled) :
      ∀ assignment ∈ spelled.toList, IsName assignment.1.toList := by
    rintro assignment member
    obtain rfl := Option.mem_toList.mp member
    exact isLine.isName
  induction isFile with
  | last isLine => exact ofLine isLine
  | line isLine _ _ induction => exact List.forall_mem_append.mpr ⟨ofLine isLine, induction⟩

theorem named_assignedAfter {earlier : Assigned}
    (already : ∀ entry ∈ earlier, IsName entry.1.toList)
    (isNamed : ∀ assignment ∈ assignments, IsName assignment.1.toList) :
    ∀ entry ∈ assignedAfter environment earlier assignments, IsName entry.1.toList := by
  induction assignments generalizing earlier with
  | nil => exact already
  | cons assignment rest induction =>
      obtain ⟨here, others⟩ := List.forall_mem_cons.mp isNamed
      refine induction (fun entry member => ?_) others
      obtain rfl | member := Ordered.mem_put member
      · exact here
      · exact already entry member

theorem Agree.mem_iff {earlier : Assigned} (agree : Agree history earlier)
    (distinct : (Ordered.keys earlier).Nodup) {name value : String} :
    (name, some value) ∈ earlier ↔ Ordered.lookup? name history = some value := by
  rw [Ordered.mem_iff_lookup? distinct, agree]
  simp

/-- The values that reach the environment can be set. -/
def Clean (environment : Environment) (history : History) : Prop :=
  ∀ name value, environment.get? name = none → Ordered.lookup? name history = some value →
    '\x00' ∉ value.toList

theorem IsName.not_mem {name : List Char} (isName : IsName name) {character : Char}
    (other : isNameRest character = false) : character ∉ name := fun member => by
  rw [isName.rest character member] at other
  cases other

/-- A file is loaded as its assignments are evaluated; a null byte that would have to be set
is told. -/
theorem load_of_file (isFile : File Quoted text assignments)
    (enabled : environment.get? disablingVariable = none) : ∃ history,
      (∀ other, Evaluates environment [] assignments other ↔ other = history) ∧
      (Clean environment history → ∃ after, load environment (normalize text) = .ok after ∧
        ∀ name, after.get? name =
          (environment.get? name).or (Ordered.lookup? name history)) ∧
      (¬Clean environment history →
        load environment (normalize text) = .error .nullByte) := by
  obtain ⟨history, unique, agree⟩ := exists_evaluates environment agree_nil assignments
  have distinct := nodup_keys_assigned environment (normalize text)
  have named : ∀ entry ∈ assignedAfter environment [] assignments, IsName entry.1.toList :=
    named_assignedAfter nofun (isName_of_file isFile)
  rw [← assigned_of_file isFile] at agree named
  -- Names are never what keeps a variable from being set; values may be.
  have setName (entry) (member : entry ∈ assigned environment (normalize text)) :
      '=' ∉ entry.1.toList ∧ '\x00' ∉ entry.1.toList :=
    ⟨(named entry member).not_mem rfl, (named entry member).not_mem rfl⟩
  refine ⟨history, unique, fun clean => ?_, fun notClean => ?_⟩
  · have settable (entry) (member : entry ∈ assigned environment (normalize text))
        (absent : environment.get? entry.1 = none) : Settable entry.1 entry.2 := by
      refine ⟨(setName entry member).1, (setName entry member).2, fun value same => ?_⟩
      refine clean entry.1 value absent ((agree.mem_iff distinct).mp ?_)
      rwa [← same]
    obtain ⟨after, loaded, holds⟩ := load_eq_ok enabled settable
    refine ⟨after, loaded, fun name => ?_⟩
    rw [holds, agree]
    cases Ordered.lookup? name history <;> rfl
  · simp only [Clean, not_forall, not_not] at notClean
    obtain ⟨name, value, absent, held, null⟩ := notClean
    rw [load_eq_extend enabled]
    exact extend_eq_nullByte distinct setName ((agree.mem_iff distinct).mpr held) absent null

end Files

end PalletTypes.EnvFile

import PalletTypes.Proofs.Aggregation.Failures

/-!
Which messages name the file. That of a file that is refused does; that of surrogates among
the types to write has not even a dot.
-/

namespace PalletTypes

/-- The message has the path in it, as it is spelled or quoted. -/
def Failure.Names (failure : Failure) (path : Path) : Prop :=
  ∃ before after, failure.message = before ++ path.toString ++ after ∨
    failure.message = before ++ (Text.ofChars path.toChars).quoted ++ after

namespace Workspace

variable {workspace : Workspace} {path : Path}

theorem locate_eq_error {fault : AccessFault} (failed : workspace.locate path = .error fault) :
    fault = .nullByte ∨ ∃ denial, fault = .denied denial path := by
  unfold locate at failed
  split at failed
  · exact .inl (Except.error.inj failed).symm
  · split at failed
    · exact .inr ⟨_, (Except.error.inj failed).symm⟩
    · obtain ⟨denial, _, rfl⟩ := mapError_eq_error_iff.mp failed
      exact .inr ⟨denial, rfl⟩

theorem readFile_eq_error {fault : AccessFault}
    (failed : workspace.readFile path = .error fault) :
    fault = .nullByte ∨ ∃ denial, fault = .denied denial path := by
  unfold readFile at failed
  split at failed
  · rename_i found
    unfold entry? at found
    rw [map_eq_error_iff] at found
    cases failed
    exact locate_eq_error found
  · exact .inr ⟨_, (Except.error.inj failed).symm⟩
  · exact .inr ⟨_, (Except.error.inj failed).symm⟩
  · cases failed

end Workspace

def BeginsWith (path : Path) (text : String) : Prop :=
  ∃ rest, text = path.toString ++ rest

theorem beginsWith_self (path : Path) : BeginsWith path path.toString :=
  ⟨"", String.append_empty.symm⟩

theorem BeginsWith.append {path : Path} {text : String} (begins : BeginsWith path text)
    (more : String) : BeginsWith path (text ++ more) := by
  obtain ⟨rest, rfl⟩ := begins
  exact ⟨rest ++ more, String.append_assoc⟩

theorem BeginsWith.names {path : Path} {failure : Failure}
    (begins : BeginsWith path failure.message) : failure.Names path := by
  obtain ⟨rest, message⟩ := begins
  refine ⟨"", rest, .inl ?_⟩
  rw [message, String.empty_append]

theorem names_of_decodeTypes {path : Path} {content : Bytes} {failure : Failure}
    (failed : decodeTypes path content = .error failure)
    (reported : failure.isReported = true) : failure.Names path := by
  have begins (more : String) := (beginsWith_self path).append more
  revert failed
  fun_cases decodeTypes path content with
  | case1 =>
      intro failed
      cases failed
      exact (((begins _).append _).append _).names
  | case2 =>
      intro failed
      cases failed
      exact (((((begins _).append _).append _).append _).append _).names
  | case3 =>
      intro failed
      cases failed
      exact (((begins _).append _).append _).names
  | case4 | case5 =>
      intro failed
      cases failed
      cases reported
  | case6 =>
      intro failed
      cases failed
  | case7 =>
      intro failed
      cases failed
      exact ((begins _).append _).names

theorem Workspace.names_of_loadTypes {workspace : Workspace} {path : Path} {failure : Failure}
    (failed : workspace.loadTypes path = .error failure)
    (reported : failure.isReported = true) : failure.Names path := by
  unfold loadTypes at failed
  split at failed
  · rename_i refused
    cases failed
    rcases readFile_eq_error refused with rfl | ⟨denial, rfl⟩
    · cases reported
    · exact ⟨_, "", .inr String.append_empty.symm⟩
  · exact names_of_decodeTypes failed reported

theorem isDigit_of_mem_toString {number : Nat} {character : Char}
    (member : character ∈ (toString number).toList) : character.isDigit := by
  have inDigits : character ∈ Decimal.toDigits number := by
    simpa [Decimal.toDigits] using member
  exact Decimal.isDigit_of_mem_toDigits inDigits

theorem dot_not_mem_toString (number : Nat) : '.' ∉ (toString number).toList :=
  fun member => absurd (isDigit_of_mem_toString member) (by decide)

theorem dot_not_mem_hexDigits (width number : Nat) : '.' ∉ hexDigits width number := by
  intro member
  obtain ⟨digit, small, isDigit⟩ := exists_of_mem_hexDigits member
  have other : ∀ digit < 16, '.' ≠ hexDigit digit := by decide
  exact other digit small isDigit

theorem dot_not_mem_append {first second : String} :
    '.' ∉ (first ++ second).toList ↔ '.' ∉ first.toList ∧ '.' ∉ second.toList := by
  rw [String.toList_append, List.mem_append, not_or]

theorem dot_not_mem_message (run : Utf8.SurrogateRun) : '.' ∉ run.message.toList := by
  unfold Utf8.SurrogateRun.message
  split
  · simp only [dot_not_mem_append, String.toList_ofList]
    exact ⟨⟨by decide, ⟨⟨by decide, dot_not_mem_hexDigits _ _⟩, by decide⟩,
      dot_not_mem_toString _⟩, by decide⟩
  · simp only [dot_not_mem_append]
    exact ⟨⟨by decide, ⟨⟨by decide, dot_not_mem_toString _⟩, by decide⟩,
      dot_not_mem_toString _⟩, by decide⟩

theorem dot_not_mem_line (run : Utf8.SurrogateRun) :
    '.' ∉ (Event.failed (.unencodable run)).line.toList := by
  have level : (Event.failed (.unencodable run)).level.name = "ERROR" := rfl
  unfold Event.line Event.message Failure.message
  rw [level]
  simp only [dot_not_mem_append]
  exact ⟨⟨by decide, by decide⟩, by decide +kernel,
    ⟨by decide +kernel, dot_not_mem_message run⟩, by decide⟩

theorem Path.mem_joined {names : List String} {name : String} {character : Char}
    (named : name ∈ names) (inside : character ∈ name.toList) : character ∈ joined names := by
  fun_induction joined names with
  | case1 => cases named
  | case2 only => exact List.mem_singleton.mp named ▸ inside
  | case3 first names several induction =>
      rcases List.mem_cons.mp named with rfl | later
      · exact List.mem_append_left _ inside
      · exact List.mem_append_right _ (List.mem_cons_of_mem _ (induction later))

theorem Path.mem_toChars {path : Path} {name : String} {character : Char}
    (named : name ∈ path.names) (inside : character ∈ name.toList) :
    character ∈ path.toChars := by
  fun_cases Path.toChars path with
  | case1 none =>
      rw [none] at named
      cases named
  | case2 => exact List.mem_append_right _ (mem_joined named inside)

end PalletTypes

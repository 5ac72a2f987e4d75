/-!
Results whose value, or whose error, is changed.
-/

namespace PalletTypes

variable {ε δ α β : Type}

theorem map_eq_ok_iff {change : α → β} {result : Except ε α} {value : β} :
    result.map change = .ok value ↔ ∃ held, result = .ok held ∧ change held = value := by
  cases result with
  | error fault => simp [Except.map]
  | ok held => simp [Except.map]

theorem map_eq_error_iff {change : α → β} {result : Except ε α} {fault : ε} :
    result.map change = .error fault ↔ result = .error fault := by
  cases result with
  | error other => simp [Except.map]
  | ok held => simp [Except.map]

theorem mapError_eq_ok_iff {convert : ε → δ} {result : Except ε α} {value : α} :
    result.mapError convert = .ok value ↔ result = .ok value := by
  cases result with
  | error fault => exact ⟨fun same => (nomatch same), fun same => (nomatch same)⟩
  | ok held =>
      exact ⟨fun same => congrArg _ (Except.ok.inj same),
        fun same => congrArg _ (Except.ok.inj same)⟩

theorem mapError_eq_error_iff {convert : ε → δ} {result : Except ε α} {fault : δ} :
    result.mapError convert = .error fault ↔
      ∃ cause, result = .error cause ∧ convert cause = fault := by
  cases result with
  | error cause =>
      constructor
      · exact fun same => ⟨cause, rfl, Except.error.inj same⟩
      · rintro ⟨_, same, rfl⟩
        cases same
        rfl
  | ok held => exact ⟨fun same => (nomatch same), fun ⟨_, same, _⟩ => (nomatch same)⟩

end PalletTypes

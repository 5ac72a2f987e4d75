import PalletTypes.Proofs.Json.Grammar

/-!
Number literals are read as the grammar has them: what it derives is taken
whole, and what is taken it derives. Each part is taken to its end as long as
what follows cannot be taken for more of it.
-/

namespace PalletTypes.Json

open Grammar

namespace NumberLiteral

def Stops (more : Char → Prop) (rest : List Char) : Prop :=
  ∀ character, rest.head? = some character → ¬ more character

theorem Stops.append {more : Char → Prop} {text rest : List Char}
    (inText : Stops more text) (inRest : Stops more rest) :
    Stops more (text ++ rest) := by
  cases text with
  | nil => exact inRest
  | cons character text => exact inText

def MoreDigits (character : Char) : Prop := character.isDigit = true

def MoreFraction (character : Char) : Prop :=
  character.isDigit = true ∨ character = '.'

def MoreNumber (character : Char) : Prop :=
  character.isDigit = true ∨ character = '.' ∨ character = 'e' ∨ character = 'E'

theorem leadingDigits_append {digits rest : List Char}
    (all : ∀ character ∈ digits, character.isDigit = true)
    (stops : Stops MoreDigits rest) :
    leadingDigits (digits ++ rest) = digits ∧ afterDigits (digits ++ rest) = rest := by
  unfold leadingDigits afterDigits
  rw [List.takeWhile_append_of_pos all, List.dropWhile_append_of_pos all]
  cases rest with
  | nil => simp
  | cons character rest =>
      have noDigit : character.isDigit = false := by
        simpa [MoreDigits] using stops character rfl
      simp [noDigit]

theorem leadingDigits_spec (text : List Char) :
    text = leadingDigits text ++ afterDigits text ∧
      ∀ character ∈ leadingDigits text, character.isDigit = true := by
  refine ⟨List.takeWhile_append_dropWhile.symm, fun character member => ?_⟩
  exact List.all_eq_true.mp List.all_takeWhile character member

/-! What is derived is taken. -/

theorem takeSign_append {sign rest : List Char} {negative : Bool}
    (spelled : Sign sign negative) (stops : Stops (· = '-') rest) :
    takeSign (sign ++ rest) = (negative, rest) := by
  cases spelled with
  | minus => rfl
  | absent =>
      fun_cases takeSign rest with
      | case1 rest => exact absurd rfl (stops '-' rfl)
      | case2 => simp

theorem takeWhole_append {whole rest : List Char} (spelled : Whole whole)
    (stops : Stops MoreDigits rest) :
    takeWhole (whole ++ rest) = (whole, rest) := by
  cases spelled with
  | zero => rfl
  | digits digits noZero =>
      obtain ⟨leading, after⟩ := leadingDigits_append digits.all stops
      cases whole with
      | nil => exact absurd rfl digits.nonempty
      | cons first others =>
          have notZero : first ≠ '0' := by simpa using noZero
          rw [List.cons_append] at leading after ⊢
          simp [takeWhole, notZero, leading, after]

theorem takeFraction_append {fraction digits rest : List Char}
    (spelled : Fraction fraction digits) (stops : Stops MoreFraction rest) :
    takeFraction (fraction ++ rest) = (digits, rest) := by
  cases spelled with
  | absent =>
      fun_cases takeFraction rest with
      | case1 rest | case2 rest => exact absurd (Or.inr rfl) (stops '.' rfl)
      | case3 => simp
  | present spelled =>
      obtain ⟨leading, after⟩ := leadingDigits_append spelled.all
        (fun character head more => stops character head (Or.inl more))
      simp only [List.cons_append, takeFraction, leading, after, spelled.nonempty,
        if_false]

theorem takeExponentSign_append {sign digits : List Char} {negative : Bool}
    (rest : List Char) (spelled : ExponentSign sign negative) (some : Digits digits) :
    takeExponentSign (sign ++ digits ++ rest) = (negative, digits ++ rest) := by
  cases spelled with
  | plus => rfl
  | minus => rfl
  | absent =>
      cases digits with
      | nil => exact absurd rfl some.nonempty
      | cons digit digits =>
          have isDigit := some.all digit List.mem_cons_self
          have notMinus : digit ≠ '-' := by
            intro same
            simp [same] at isDigit
          have notPlus : digit ≠ '+' := by
            intro same
            simp [same] at isDigit
          simp [takeExponentSign, notMinus, notPlus]

theorem takeExponent_append {exponent rest : List Char}
    {power : Option (Bool × List Char)} (spelled : Exponent exponent power)
    (stops : Stops MoreNumber rest) :
    takeExponent (exponent ++ rest) = (power, rest) := by
  cases spelled with
  | absent =>
      cases rest with
      | nil => rfl
      | cons mark rest =>
          have noMark : ¬ (mark = 'e' ∨ mark = 'E') := fun isMark =>
            stops mark rfl (Or.inr (Or.inr isMark))
          simp [takeExponent, noMark]
  | @present mark sign digits negative isMark isSign some =>
      obtain ⟨leading, after⟩ := leadingDigits_append some.all
        (fun character head more => stops character head (Or.inl more))
      have signed := takeExponentSign_append rest isSign some
      simp only [List.cons_append, takeExponent, signed, leading, after, isMark,
        some.nonempty, ne_eq, not_false_eq_true, and_self, if_true]

theorem stops_of_fraction {fraction digits : List Char}
    (spelled : Fraction fraction digits) : Stops MoreDigits fraction := by
  cases spelled with
  | absent => exact fun _ head => nomatch head
  | present =>
      intro character head
      cases head
      simp [MoreDigits]

theorem stops_of_exponent {exponent : List Char} {power : Option (Bool × List Char)}
    (spelled : Exponent exponent power) : Stops MoreFraction exponent := by
  cases spelled with
  | absent => exact fun _ head => nomatch head
  | present isMark =>
      intro character head
      cases head
      rcases isMark with rfl | rfl <;> simp [MoreFraction]

theorem stops_of_whole {whole : List Char} (spelled : Whole whole) :
    whole ≠ [] ∧ Stops (· = '-') whole := by
  cases spelled with
  | zero =>
      refine ⟨List.cons_ne_nil _ _, ?_⟩
      intro character head
      cases head
      decide
  | digits spelled =>
      refine ⟨spelled.nonempty, ?_⟩
      rintro character head rfl
      have isDigit := spelled.all '-' (List.mem_of_mem_head? head)
      simp at isDigit

theorem take?_append {text rest : List Char} {literal : NumberLiteral}
    (spelled : Number text literal) (stops : Stops MoreNumber rest) :
    take? (text ++ rest) = some (literal, rest) := by
  cases spelled with
  | @parts sign whole fraction exponent digits negative power isSign isWhole
      isFraction isExponent =>
      have afterFraction : Stops MoreFraction (exponent ++ rest) :=
        (stops_of_exponent isExponent).append fun character head more =>
          stops character head (more.imp_right Or.inl)
      have afterWhole : Stops MoreDigits (fraction ++ (exponent ++ rest)) :=
        (stops_of_fraction isFraction).append fun character head more =>
          afterFraction character head (Or.inl more)
      obtain ⟨nonempty, noSign⟩ := stops_of_whole isWhole
      have afterSign : Stops (· = '-') (whole ++ (fraction ++ (exponent ++ rest))) := by
        cases whole with
        | nil => exact absurd rfl nonempty
        | cons character whole => exact noSign
      have takenSign := takeSign_append isSign afterSign
      have takenWhole := takeWhole_append isWhole afterWhole
      have takenFraction := takeFraction_append isFraction afterFraction
      have takenExponent := takeExponent_append isExponent stops
      simp only [List.append_assoc, take?, takenSign, takenWhole, takenFraction,
        takenExponent, nonempty, if_false]

/-! What is taken is derived. -/

theorem takeSign_spec (text : List Char) :
    ∃ sign, text = sign ++ (takeSign text).2 ∧ Sign sign (takeSign text).1 := by
  fun_cases takeSign text with
  | case1 rest => exact ⟨['-'], rfl, .minus⟩
  | case2 text => exact ⟨[], rfl, .absent⟩

theorem takeWhole_spec {text : List Char} (found : (takeWhole text).1 ≠ []) :
    text = (takeWhole text).1 ++ (takeWhole text).2 ∧ Whole (takeWhole text).1 := by
  fun_cases takeWhole text with
  | case1 rest => exact ⟨rfl, .zero⟩
  | case2 text noZero =>
      obtain ⟨split, all⟩ := leadingDigits_spec text
      rw [takeWhole] at found
      · refine ⟨split, .digits ⟨found, all⟩ ?_⟩
        intro leading
        cases text with
        | nil => exact found rfl
        | cons first rest =>
            unfold leadingDigits at leading
            rw [List.takeWhile_cons] at leading
            split at leading
            · exact noZero rest (congrArg (· :: rest) (Option.some.inj leading))
            · cases leading
      · exact noZero

theorem takeFraction_spec (text : List Char) :
    ∃ fraction, text = fraction ++ (takeFraction text).2 ∧
      Fraction fraction (takeFraction text).1 := by
  fun_cases takeFraction text with
  | case1 rest => exact ⟨[], rfl, .absent⟩
  | case2 rest nonempty =>
      obtain ⟨split, all⟩ := leadingDigits_spec rest
      exact ⟨'.' :: leadingDigits rest, congrArg _ split, .present ⟨nonempty, all⟩⟩
  | case3 text => exact ⟨[], rfl, .absent⟩

theorem takeExponentSign_spec (text : List Char) :
    ∃ sign, text = sign ++ (takeExponentSign text).2 ∧
      ExponentSign sign (takeExponentSign text).1 := by
  fun_cases takeExponentSign text with
  | case1 rest => exact ⟨['-'], rfl, .minus⟩
  | case2 rest => exact ⟨['+'], rfl, .plus⟩
  | case3 text => exact ⟨[], rfl, .absent⟩

theorem takeExponent_spec (text : List Char) :
    ∃ exponent, text = exponent ++ (takeExponent text).2 ∧
      Exponent exponent (takeExponent text).1 := by
  fun_cases takeExponent text with
  | case1 mark rest signed held =>
      obtain ⟨sign, splitSign, isSign⟩ := takeExponentSign_spec rest
      obtain ⟨split, all⟩ := leadingDigits_spec signed.2
      refine ⟨mark :: (sign ++ leadingDigits signed.2), ?_,
        .present held.1 isSign ⟨held.2, all⟩⟩
      rw [List.cons_append, List.append_assoc, ← split, ← splitSign]
  | case2 mark rest => exact ⟨[], rfl, .absent⟩
  | case3 => exact ⟨[], rfl, .absent⟩

theorem take?_spec {text rest : List Char} {literal : NumberLiteral}
    (taken : take? text = some (literal, rest)) :
    ∃ spelled, text = spelled ++ rest ∧ Number spelled literal := by
  simp only [take?] at taken
  split at taken
  · cases taken
  · rename_i found
    cases taken
    obtain ⟨sign, splitSign, isSign⟩ := takeSign_spec text
    obtain ⟨splitWhole, isWhole⟩ := takeWhole_spec found
    obtain ⟨fraction, splitFraction, isFraction⟩ :=
      takeFraction_spec (takeWhole (takeSign text).2).2
    obtain ⟨exponent, splitExponent, isExponent⟩ :=
      takeExponent_spec (takeFraction (takeWhole (takeSign text).2).2).2
    refine ⟨_, ?_, .parts isSign isWhole isFraction isExponent⟩
    simp only [List.append_assoc, ← splitExponent, ← splitFraction, ← splitWhole,
      ← splitSign]

/-! What a literal stands for. -/

theorem value_eq_ok_iff {literal : NumberLiteral} {value : Value} :
    literal.value = .ok value ↔ NumberValue literal value := by
  constructor
  · obtain ⟨negative, whole, fraction, exponent⟩ := literal
    intro denoted
    unfold NumberLiteral.value at denoted
    split at denoted
    · rename_i noFraction noExponent
      simp only at noFraction noExponent
      subst noFraction noExponent
      split at denoted
      · cases denoted
      · rename_i short
        cases denoted
        exact .whole (Nat.not_lt.mp short)
    · rename_i notWhole
      cases denoted
      refine .double ?_
      by_cases noFraction : fraction = []
      · exact Or.inr (notWhole noFraction)
      · exact Or.inl noFraction
  · intro denoted
    cases denoted with
    | whole short => simp only [NumberLiteral.value, if_neg (Nat.not_lt.mpr short)]
    | double notWhole =>
        unfold NumberLiteral.value
        split
        · rename_i noFraction noExponent
          rcases notWhole with held | held
          · exact absurd noFraction held
          · exact absurd noExponent held
        · rfl

theorem fault_of_value {literal : NumberLiteral} {fault : Fault}
    (failed : literal.value = .error fault) :
    fault = .longInteger literal.whole.length := by
  unfold NumberLiteral.value at failed
  split at failed
  · split at failed
    · exact (Except.error.inj failed).symm
    · cases failed
  · cases failed

end NumberLiteral

end PalletTypes.Json

import PalletTypes.Proofs.Text.Utf8

/-!
A text that cannot be written is refused for the first of its surrogates and those that stand
together with it.
-/

namespace PalletTypes

namespace Utf8

/-- The run stands in the text after characters alone, and no surrogate comes next after it. -/
structure FirstRun (text : Text) (run : SurrogateRun) (before tail after : Text) : Prop where
  split : text = before ++ .surrogate run.first :: (tail ++ after)
  characters : before.NoSurrogates
  surrogates : ∀ codePoint ∈ tail, codePoint.isSurrogate = true
  ends : ∀ codePoint, after.head? = some codePoint → codePoint.isSurrogate = false
  start : run.start = before.length
  length : run.length = tail.length + 1

theorem firstRunFrom?_append {before : Text} (clean : before.NoSurrogates) (position : Nat)
    (text : Text) :
    firstRunFrom? position (before ++ text) =
      firstRunFrom? (position + before.length) text := by
  induction before generalizing position with
  | nil => rfl
  | cons codePoint before induction =>
      obtain ⟨isCharacter, others⟩ := Text.noSurrogates_cons.mp clean
      cases codePoint with
      | scalar character =>
          rw [List.cons_append, firstRunFrom?, induction others, List.length_cons]
          exact congrArg (firstRunFrom? · text) (by omega)
      | surrogate half => cases isCharacter

theorem takeWhile_surrogates {tail after : Text}
    (surrogates : ∀ codePoint ∈ tail, codePoint.isSurrogate = true)
    (ends : ∀ codePoint, after.head? = some codePoint → codePoint.isSurrogate = false) :
    (tail ++ after).takeWhile CodePoint.isSurrogate = tail := by
  rw [List.takeWhile_append_of_pos surrogates]
  cases after with
  | nil => exact List.append_nil tail
  | cons codePoint after =>
      rw [List.takeWhile_cons_of_neg (Bool.eq_false_iff.mp (ends codePoint rfl)),
        List.append_nil]

theorem FirstRun.found {text before tail after : Text} {run : SurrogateRun}
    (first : FirstRun text run before tail after) : firstRunFrom? 0 text = some run := by
  obtain ⟨rfl, characters, surrogates, ends, start, length⟩ := first
  rw [firstRunFrom?_append characters, firstRunFrom?, takeWhile_surrogates surrogates ends,
    Nat.zero_add, ← start, ← length]

theorem exists_firstRun {text : Text} (unclean : ¬ text.NoSurrogates) :
    ∃ run before tail after, FirstRun text run before tail after := by
  induction text with
  | nil => exact absurd Text.noSurrogates_nil unclean
  | cons codePoint text induction =>
      cases codePoint with
      | scalar character =>
          obtain ⟨run, before, tail, after, split, characters, surrogates, ends, start, length⟩ :=
            induction fun clean => unclean (Text.noSurrogates_cons.mpr ⟨rfl, clean⟩)
          exact ⟨⟨run.start + 1, run.first, run.length⟩, .scalar character :: before, tail, after,
            congrArg _ split, Text.noSurrogates_cons.mpr ⟨rfl, characters⟩, surrogates, ends,
            congrArg (· + 1) start, length⟩
      | surrogate half =>
          refine ⟨⟨0, half, (text.takeWhile CodePoint.isSurrogate).length + 1⟩, [],
            text.takeWhile CodePoint.isSurrogate, text.dropWhile CodePoint.isSurrogate,
            ?_, Text.noSurrogates_nil, ?_, ?_, rfl, rfl⟩
          · rw [List.takeWhile_append_dropWhile, List.nil_append]
          · exact fun codePoint member => List.all_eq_true.mp List.all_takeWhile codePoint member
          · intro codePoint next
            have stops := List.head?_dropWhile_not CodePoint.isSurrogate text
            rw [next] at stops
            exact stops

end Utf8

theorem Text.encode_eq_error_iff {text : Text} {run : Utf8.SurrogateRun} :
    text.encode = .error run ↔
      ∃ before tail after, Utf8.FirstRun text run before tail after := by
  have refused : text.encode = .error run ↔ Utf8.firstRunFrom? 0 text = some run := by
    unfold encode
    cases Utf8.firstRunFrom? 0 text <;> simp
  rw [refused]
  constructor
  · intro found
    have unclean : ¬ text.NoSurrogates := by
      intro none
      rw [Utf8.firstRunFrom?_eq_none_iff.mpr none] at found
      cases found
    obtain ⟨other, before, tail, after, first⟩ := Utf8.exists_firstRun unclean
    cases found.symm.trans first.found
    exact ⟨before, tail, after, first⟩
  · rintro ⟨before, tail, after, first⟩
    exact first.found

end PalletTypes

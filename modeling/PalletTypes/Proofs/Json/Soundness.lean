import PalletTypes.Proofs.Json.Completeness

/-!
What is read the grammar derives. Every step of the strict reader yields the
text it took and a derivation of the value it came to.
-/

namespace PalletTypes.Json

open Grammar

variable {α : Type}

theorem skipSpace_spec (text : List Char) :
    ∃ gap, Gap gap ∧ text = gap ++ skipSpace text := by
  refine ⟨text.takeWhile isSpace, ?_, List.takeWhile_append_dropWhile.symm⟩
  intro character member
  exact List.all_eq_true.mp List.all_takeWhile character member

theorem gap_before {text rest : List Char} (skipped : skipSpace text = rest) :
    ∃ gap, Gap gap ∧ text = gap ++ rest :=
  skipped ▸ skipSpace_spec text

theorem readNumber_spec {text rest : List Char} {value : Value}
    (result : readNumber text = .ok (value, rest)) :
    ∃ spelled, text = spelled ++ rest ∧ Scalar spelled value := by
  unfold readNumber at result
  split at result
  · cases result
  · rename_i literal after taken
    obtain ⟨spelled, split, isNumber⟩ := NumberLiteral.take?_spec taken
    obtain ⟨held, number, same⟩ := map_eq_ok_iff.mp result
    cases same
    exact ⟨spelled, split, .number isNumber (NumberLiteral.value_eq_ok_iff.mp number)⟩

theorem readScalar_spec {text rest : List Char} {value : Value}
    (result : readScalar .strict text = .ok (value, rest)) :
    ∃ spelled, text = spelled ++ rest ∧ Scalar spelled value := by
  revert result
  fun_cases readScalar .strict text with
  | case1 afterQuote =>
      intro result
      obtain ⟨⟨held, after⟩, taken, same⟩ := map_eq_ok_iff.mp result
      cases same
      obtain ⟨body, split, isString⟩ := StringLiteral.read_spec taken
      exact ⟨_, congrArg _ split, .string isString⟩
  | case2 =>
      intro result
      cases result
      exact ⟨_, rfl, .null⟩
  | case3 =>
      intro result
      cases result
      exact ⟨_, rfl, .true⟩
  | case4 =>
      intro result
      cases result
      exact ⟨_, rfl, .false⟩
  | case5 | case6 | case7 =>
      intro result
      cases result
  | case8 => exact readNumber_spec

section Lists

variable {close : Char} {readPart : PartReader α} {Element : List Char → α → Prop}
  {text : List Char}

def TakesElements (readPart : PartReader α) (Element : List Char → α → Prop) : Prop :=
  ∀ text value rest, readPart text = .ok (value, rest) →
    ∃ spelled, text = spelled ++ rest ∧ Element spelled value

theorem ReadsParts.sequence (takes : TakesElements readPart Element)
    {result : Except Fault (List α × List Char)}
    (reads : ReadsParts close readPart text result) {values : List α} {rest : List Char}
    (found : result = .ok (values, rest)) :
    ∃ spelled, text = spelled ++ rest ∧ Sequence close Element spelled values := by
  induction reads generalizing values rest with
  | failed | unseparated => cases found
  | @more text after next value others part separator _ induction =>
      obtain ⟨⟨later, final⟩, done, same⟩ := map_eq_ok_iff.mp found
      cases same
      obtain ⟨spelled, splitPart, isElement⟩ := takes text value after part
      obtain ⟨before, isBefore, splitBefore⟩ := gap_before separator
      obtain ⟨between, isBetween, splitBetween⟩ := skipSpace_spec next
      obtain ⟨others, splitOthers, isSequence⟩ := induction done
      refine ⟨_, ?_, .more isElement isBefore isBetween isSequence⟩
      rw [splitPart, splitBefore, splitBetween, splitOthers]
      simp
  | @closed text after rest value part separator =>
      cases found
      obtain ⟨spelled, splitPart, isElement⟩ := takes text value after part
      obtain ⟨gap, isGap, splitGap⟩ := gap_before separator
      refine ⟨_, ?_, .last isElement isGap⟩
      rw [splitPart, splitGap]
      simp

theorem ReadsBody.body (takes : TakesElements readPart Element)
    {values : List α} {rest : List Char}
    (reads : ReadsBody close readPart text (.ok (values, rest))) :
    ∃ spelled, text = spelled ++ rest ∧ Body close Element spelled values := by
  obtain ⟨gap, isGap, splitGap⟩ := skipSpace_spec text
  cases reads with
  | empty closed =>
      refine ⟨_, ?_, .empty isGap⟩
      rw [splitGap, closed]
      simp
  | filled _ parts =>
      obtain ⟨spelled, split, isSequence⟩ := parts.sequence takes rfl
      refine ⟨gap ++ spelled, ?_, .filled isGap isSequence⟩
      rw [List.append_assoc, ← split, ← splitGap]

end Lists

section Containers

variable {readItem : ItemReader} {Item : List Char → Value → Prop}

def TakesItems (readItem : ItemReader) (Item : List Char → Value → Prop) : Prop :=
  ∀ text taken, readItem text = .ok taken →
    ∃ spelled, text = spelled ++ taken.rest ∧ Item spelled taken.value

theorem TakesItems.elements (takes : TakesItems readItem Item) :
    TakesElements (fun text => unbounded (readItem text)) Item := by
  intro text value rest found
  obtain ⟨taken, done, same⟩ := map_eq_ok_iff.mp found
  cases same
  exact takes text taken done

theorem readArray_spec (takes : TakesItems readItem Item) {text : List Char}
    {taken : Taken (List Value) (text.length + 1)}
    (result : readArray readItem text = .ok taken) :
    ∃ spelled, text = spelled ++ taken.rest ∧ Body ']' Item spelled taken.value := by
  have body := readArray_readsBody readItem text
  rw [result] at body
  exact ReadsBody.body takes.elements body

theorem takes_member {readValue : PartReader Value} (takes : TakesElements readValue Item) :
    TakesElements (readMember readValue) (Member Item) := by
  intro text pair rest found
  unfold readMember at found
  split at found
  case h_2 => cases found
  rename_i afterQuote
  split at found
  · cases found
  rename_i key afterName name
  split at found
  case h_2 => cases found
  rename_i afterColon colon
  obtain ⟨⟨value, after⟩, item, same⟩ := map_eq_ok_iff.mp found
  cases same
  obtain ⟨body, splitName, isName⟩ := StringLiteral.read_spec name
  obtain ⟨before, isBefore, splitBefore⟩ := gap_before colon
  obtain ⟨between, isBetween, splitBetween⟩ := skipSpace_spec afterColon
  obtain ⟨spelled, splitItem, isItem⟩ := takes _ _ _ item
  refine ⟨_, ?_, .pair isName isBefore isBetween isItem⟩
  calc '"' :: afterQuote
    _ = '"' :: (body ++ (before ++ ':' :: (between ++ skipSpace afterColon))) := by
      rw [← splitBetween, ← splitBefore, ← splitName]
    _ = '"' :: (body ++ (before ++ ':' :: (between ++ (spelled ++ rest)))) :=
      congrArg (fun rest => '"' :: (body ++ (before ++ ':' :: (between ++ rest)))) splitItem
    _ = _ := by simp

theorem readObject_spec (takes : TakesItems readItem Item) {text : List Char}
    {taken : Taken Members (text.length + 1)}
    (result : readObject readItem text = .ok taken) :
    ∃ spelled pairs, text = spelled ++ taken.rest ∧
      Body '}' (Member Item) spelled pairs ∧ taken.value = Ordered.putAll [] pairs := by
  obtain ⟨parts, body, same⟩ := readObject_readsBody readItem text
  rw [result] at same
  obtain ⟨⟨pairs, rest⟩, rfl, whole⟩ := map_eq_ok_iff.mp same.symm
  obtain ⟨members, rfl⟩ := Prod.mk.inj whole
  obtain ⟨spelled, split, isBody⟩ := ReadsBody.body (takes_member takes.elements) body
  exact ⟨spelled, pairs, split, isBody, members.symm⟩

end Containers

theorem readValue_spec (depth : Nat) :
    TakesItems (readValue .strict depth) (Denotes depth) := by
  induction depth using Nat.strongRecOn with
  | ind depth nested =>
      intro text taken result
      fun_induction readValue .strict depth text with
      | case1 | case2 | case5 => cases result
      | case3 depth rest =>
          obtain ⟨array, found, same⟩ := map_eq_ok_iff.mp result
          cases same
          obtain ⟨spelled, split, isBody⟩ :=
            readArray_spec (nested depth (Nat.lt_succ_self depth)) found
          exact ⟨_, congrArg _ split, Or.inr (.array isBody)⟩
      | case4 depth rest =>
          obtain ⟨object, found, same⟩ := map_eq_ok_iff.mp result
          cases same
          obtain ⟨spelled, pairs, split, isBody, members⟩ :=
            readObject_spec (nested depth (Nat.lt_succ_self depth)) found
          refine ⟨'{' :: spelled, congrArg ('{' :: ·) split, Or.inr ?_⟩
          simp only [members]
          exact .object isBody
      | case6 depth text value rest scalar =>
          cases result
          obtain ⟨spelled, split, isScalar⟩ := readScalar_spec scalar
          exact ⟨spelled, split, denotes_of_scalar isScalar⟩

theorem document_of_read {text : List Char} {value : Value}
    (result : read .strict text = .ok value) : Document depthLimit text value := by
  unfold read at result
  split at result
  · cases result
  · split at result
    · cases result
    · rename_i taken found
      split at result
      · rename_i finished
        have denoted := Except.ok.inj result
        obtain ⟨before, isBefore, splitBefore⟩ := skipSpace_spec text
        obtain ⟨spelled, splitValue, isValue⟩ := readValue_spec depthLimit _ taken found
        obtain ⟨after, isAfter, splitAfter⟩ := gap_before finished
        have whole : text = before ++ (spelled ++ after) := by
          calc text
            _ = before ++ skipSpace text := splitBefore
            _ = before ++ (spelled ++ taken.rest) := congrArg _ splitValue
            _ = before ++ (spelled ++ after) := by rw [splitAfter, List.append_nil]
        rw [denoted] at isValue
        rw [whole]
        exact .spaced isBefore isValue isAfter
      · cases result

/-- The strict reader reads exactly the texts that the grammar derives, each as the
value that it denotes. -/
theorem read_strict_eq_ok_iff {text : List Char} {value : Value} :
    read .strict text = .ok value ↔ Document depthLimit text value :=
  ⟨document_of_read, read_document⟩

end PalletTypes.Json

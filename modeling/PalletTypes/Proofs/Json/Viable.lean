import PalletTypes.Decimal.Shortest
import PalletTypes.Proofs.Json.Soundness

/-!
Where the reader gives up. What stands before a fault begins something that the grammar
derives, so a fault is never told later than where the text goes wrong.
-/

namespace PalletTypes.Json

open Grammar

variable {α β : Type}

/-- More can follow so that the whole is derived. -/
def Viable (Element : List Char → α → Prop) (text : List Char) : Prop :=
  ∃ more value, Element (text ++ more) value

/-- What stands before the fault is viable, and before a bare word it is so even with a
number in the place of the word. Other faults name no place. -/
inductive Breaks (Element : List Char → α → Prop) : List Char → Fault → Prop
  | malformed {before rest : List Char} {complaint : Complaint} :
      Viable Element before → Breaks Element (before ++ rest) (.malformed complaint rest)
  | bareWord {before after : List Char} {kind : NonFinite} :
      Viable Element (before ++ ['0']) →
        Breaks Element (before ++ (kind.word.toList ++ after))
          (.bareWord kind (kind.word.toList ++ after))
  | longInteger {text : List Char} {digits : Nat} :
      Breaks Element text (.longInteger digits)
  | deepNesting {text : List Char} : Breaks Element text .deepNesting

theorem Breaks.atStart {Element : List Char → α → Prop} (start : Viable Element [])
    {text : List Char} {complaint : Complaint} :
    Breaks Element text (.malformed complaint text) :=
  @Breaks.malformed _ _ [] text complaint start

/-- A fault in a part is one in the whole, at the same place. -/
theorem Breaks.within {Part : List Char → α → Prop} {Whole : List Char → β → Prop}
    (left : List Char)
    (completes : ∀ text value, Part text value →
      ∃ right whole, Whole (left ++ (text ++ right)) whole)
    {text : List Char} {fault : Fault} (breaks : Breaks Part text fault) :
    Breaks Whole (left ++ text) fault := by
  have extended {before : List Char} (viable : Viable Part before) :
      Viable Whole (left ++ before) := by
    obtain ⟨more, value, isPart⟩ := viable
    obtain ⟨right, whole, isWhole⟩ := completes _ value isPart
    refine ⟨more ++ right, whole, ?_⟩
    simpa only [List.append_assoc] using isWhole
  cases breaks with
  | @malformed before rest complaint viable =>
      rw [← List.append_assoc]
      exact .malformed (extended viable)
  | @bareWord before after kind viable =>
      rw [← List.append_assoc]
      refine .bareWord ?_
      rw [List.append_assoc]
      exact extended viable
  | longInteger => exact .longInteger
  | deepNesting => exact .deepNesting

/-- Every fault of the reader is at a place that it has come to rightly. -/
def BreaksRightly (readPart : PartReader α) (Element : List Char → α → Prop) : Prop :=
  ∀ text fault, readPart text = .error fault → Breaks Element text fault

namespace StringLiteral

theorem partsText_concat {text last : List Char} {parts : List Part} {part : Part}
    (spelled : PartsText text parts) (isPart : PartText last part) :
    PartsText (text ++ last) (parts ++ [part]) := by
  induction spelled with
  | nil => simpa using PartsText.cons isPart .nil
  | cons first _ induction =>
      rw [List.append_assoc]
      exact .cons first induction

theorem viable_nil : Viable StringText [] :=
  ⟨_, _, .quoted .nil⟩

theorem viable_parts {text : List Char} {parts : List Part}
    (spelled : PartsText text parts) : Viable StringText ('"' :: text) :=
  ⟨['"'], _, .quoted spelled⟩

theorem viable_backslash {text : List Char} {parts : List Part}
    (spelled : PartsText text parts) : Viable StringText ('"' :: (text ++ ['\\'])) := by
  have escaped : PartText ['\\', '\\'] (.character '\\') := .letter rfl
  have quoted := StringText.quoted (partsText_concat spelled escaped)
  rw [List.append_assoc] at quoted
  refine ⟨['\\', '"'], joinParts (parts ++ [.character '\\']), ?_⟩
  rw [List.cons_append, List.append_assoc]
  exact quoted

theorem breaks_of_read {opening text before : List Char} {done : Text} {parts : List Part}
    {fault : Fault} (spelled : PartsText before parts)
    (start : opening = '"' :: (before ++ text))
    (failed : read opening done text = .error fault) :
    Breaks StringText opening fault := by
  fun_induction read opening done text generalizing before parts with
  | case1 | case3 =>
      cases failed
      exact .atStart viable_nil
  | case2 => cases failed
  | case4 | case6 =>
      cases failed
      have viable := viable_backslash spelled
      rw [start]
      simpa using Breaks.malformed viable
  | case5 done first second third fourth next rest unit named induction =>
      refine induction (partsText_concat spelled (.number named)) ?_ failed
      rw [start]
      simp
  | case7 | case9 =>
      cases failed
      rw [start]
      exact .malformed (viable_parts spelled)
  | case8 done letter rest _ _ character escape induction =>
      refine induction (partsText_concat spelled (.letter escape)) ?_ failed
      rw [start]
      simp
  | case10 done character rest noQuote alone _ _ notEscape notControl induction =>
      have noBackslash : character ≠ '\\' := by
        intro isBackslash
        cases rest with
        | nil => exact alone isBackslash rfl
        | cons letter rest => exact notEscape letter rest isBackslash rfl
      have plain := PartText.plain (Nat.not_lt.mp notControl) noQuote noBackslash
      refine induction (partsText_concat spelled plain) ?_ failed
      rw [start]
      simp

theorem breaksRightly {afterQuote : List Char} {fault : Fault}
    (failed : read ('"' :: afterQuote) [] afterQuote = .error fault) :
    Breaks StringText ('"' :: afterQuote) fault :=
  breaks_of_read .nil rfl failed

end StringLiteral

theorem scalar_zero : Scalar ['0'] (.integer 0) :=
  .number (.parts .absent .zero .absent .absent) (.whole (by decide))

theorem readScalar_breaksRightly : BreaksRightly (readScalar .strict) Scalar := by
  have start : Viable Scalar [] := ⟨_, _, scalar_zero⟩
  have word (kind : NonFinite) (after : List Char) :
      Breaks Scalar (kind.word.toList ++ after) (.bareWord kind (kind.word.toList ++ after)) :=
    @Breaks.bareWord _ _ [] after kind ⟨[], _, scalar_zero⟩
  intro text fault
  fun_cases readScalar .strict text with
  | case1 afterQuote =>
      intro failed
      have broken := StringLiteral.breaksRightly (map_eq_error_iff.mp failed)
      refine broken.within [] fun text value isString => ⟨[], .string value, ?_⟩
      simpa using Scalar.string isString
  | case2 | case3 | case4 =>
      intro failed
      cases failed
  | case5 rest =>
      intro failed
      cases failed
      exact word .notANumber rest
  | case6 rest =>
      intro failed
      cases failed
      exact word .infinity rest
  | case7 rest =>
      intro failed
      cases failed
      exact word .negativeInfinity rest
  | case8 text =>
      intro failed
      unfold readNumber at failed
      split at failed
      · cases failed
        exact .atStart start
      · rename_i literal rest taken
        rw [NumberLiteral.fault_of_value (map_eq_error_iff.mp failed)]
        exact .longInteger

section Lists

variable {close : Char} {readPart : PartReader α} {Element : List Char → α → Prop}
  {text : List Char}

theorem ReadsParts.breaks (takes : TakesElements readPart Element)
    (rightly : BreaksRightly readPart Element) {result : Except Fault (List α × List Char)}
    (reads : ReadsParts close readPart text result) {fault : Fault}
    (failed : result = .error fault) : Breaks (Sequence close Element) text fault := by
  induction reads with
  | @failed text other broken =>
      cases failed
      refine (rightly text fault broken).within [] fun text value isElement => ?_
      exact ⟨[close], [value], by simpa using Sequence.last isElement gap_nil⟩
  | @more text after next value others part separator _ induction =>
      obtain ⟨spelled, splitPart, isElement⟩ := takes text value after part
      obtain ⟨before, isBefore, splitBefore⟩ := gap_before separator
      obtain ⟨between, isBetween, splitBetween⟩ := skipSpace_spec next
      have whole : text = spelled ++ (before ++ ',' :: between) ++ skipSpace next := by
        calc text
          _ = spelled ++ (before ++ ',' :: (between ++ skipSpace next)) := by
            rw [← splitBetween, ← splitBefore, ← splitPart]
          _ = _ := by simp
      rw [whole]
      refine (induction (map_eq_error_iff.mp failed)).within _ fun text values isSequence => ?_
      refine ⟨[], value :: values, ?_⟩
      simpa using Sequence.more isElement isBefore isBetween isSequence
  | closed => cases failed
  | @unseparated text after value part =>
      cases failed
      obtain ⟨spelled, splitPart, isElement⟩ := takes text value after part
      obtain ⟨gap, isGap, splitGap⟩ := skipSpace_spec after
      have whole : text = (spelled ++ gap) ++ skipSpace after := by
        rw [splitPart, List.append_assoc, ← splitGap]
      rw [whole]
      refine .malformed ⟨[close], [value], ?_⟩
      simpa using Sequence.last isElement isGap

theorem ReadsBody.breaks (takes : TakesElements readPart Element)
    (rightly : BreaksRightly readPart Element) {fault : Fault}
    (reads : ReadsBody close readPart text (.error fault)) :
    Breaks (Body close Element) text fault := by
  obtain ⟨gap, isGap, splitGap⟩ := skipSpace_spec text
  cases reads with
  | filled _ parts =>
      rw [splitGap]
      refine (parts.breaks takes rightly rfl).within gap fun text values isSequence => ?_
      refine ⟨[], values, ?_⟩
      simpa using Body.filled isGap isSequence

end Lists

section Containers

variable {Item : List Char → Value → Prop} (hasItem : ∃ text value, Item text value)
include hasItem

theorem viable_member_nil : Viable (Member Item) [] := by
  obtain ⟨text, value, isItem⟩ := hasItem
  exact ⟨['"', '"', ':'] ++ text, _, .pair (.quoted .nil) gap_nil gap_nil isItem⟩

theorem readMember_breaksRightly {readItem : PartReader Value}
    (rightly : BreaksRightly readItem Item) :
    BreaksRightly (readMember readItem) (Member Item) := by
  have start : Viable (Member Item) [] := viable_member_nil hasItem
  obtain ⟨spelling, item, isItem⟩ := hasItem
  intro text fault failed
  unfold readMember at failed
  split at failed
  case h_2 =>
    cases failed
    exact .atStart start
  rename_i afterQuote
  split at failed
  case h_1 other name =>
    cases failed
    refine (StringLiteral.breaksRightly name).within [] fun text key isName => ?_
    refine ⟨':' :: spelling, (key, item), ?_⟩
    simpa using Member.pair isName gap_nil gap_nil isItem
  rename_i key afterName name
  obtain ⟨body, splitName, isName⟩ := StringLiteral.read_spec name
  split at failed
  case h_1 afterColon colon =>
    obtain ⟨before, isBefore, splitBefore⟩ := gap_before colon
    obtain ⟨between, isBetween, splitBetween⟩ := skipSpace_spec afterColon
    have whole : '"' :: afterQuote =
        '"' :: body ++ (before ++ ':' :: between) ++ skipSpace afterColon := by
      calc '"' :: afterQuote
        _ = '"' :: (body ++ (before ++ ':' :: (between ++ skipSpace afterColon))) := by
          rw [← splitBetween, ← splitBefore, ← splitName]
        _ = _ := by simp
    rw [whole]
    refine (rightly _ _ (map_eq_error_iff.mp failed)).within _ fun text value isItem => ?_
    refine ⟨[], (key, value), ?_⟩
    simpa using Member.pair isName isBefore isBetween isItem
  case h_2 =>
    cases failed
    obtain ⟨gap, isGap, splitGap⟩ := skipSpace_spec afterName
    have whole : '"' :: afterQuote = ('"' :: body ++ gap) ++ skipSpace afterName := by
      rw [splitName, List.append_assoc, ← splitGap]
      simp
    rw [whole]
    refine .malformed ⟨':' :: spelling, (key, item), ?_⟩
    simpa using Member.pair isName isGap gap_nil isItem

end Containers

theorem readValue_breaksRightly (depth : Nat) :
    BreaksRightly (fun text => unbounded (readValue .strict depth text)) (Denotes depth) := by
  have scalar (depth : Nat) {text : List Char} (noArray : ∀ rest, text ≠ '[' :: rest)
      (noObject : ∀ rest, text ≠ '{' :: rest) {fault : Fault}
      (failed : unbounded (readValue .strict depth text) = .error fault) :
      Breaks (Denotes depth) text fault := by
    rw [unbounded_readValue_scalar .strict depth noArray noObject] at failed
    refine (readScalar_breaksRightly text fault failed).within [] fun text value isScalar => ?_
    exact ⟨[], value, by simpa using denotes_of_scalar isScalar⟩
  induction depth with
  | zero =>
      intro text fault failed
      cases valueStart text with
      | array rest | object rest =>
          cases failed
          exact .deepNesting
      | scalar noArray noObject => exact scalar 0 noArray noObject failed
  | succ depth rightly =>
      have takes := (readValue_spec depth).elements
      have hasItem : ∃ text value, Denotes depth text value :=
        ⟨_, _, denotes_of_scalar scalar_zero⟩
      intro text fault failed
      cases valueStart text with
      | array rest =>
          simp only [unbounded_readValue_array] at failed
          have body := readArray_readsBody (readValue .strict depth) rest
          rw [map_eq_error_iff.mp failed] at body
          refine (body.breaks takes rightly).within ['['] fun text items isBody => ?_
          refine ⟨[], .array items, ?_⟩
          rw [List.append_nil]
          exact Or.inr (.array isBody)
      | object rest =>
          simp only [unbounded_readValue_object] at failed
          obtain ⟨parts, body, same⟩ := readObject_readsBody (readValue .strict depth) rest
          rw [map_eq_error_iff.mp failed] at same
          rw [map_eq_error_iff.mp same.symm] at body
          have broken := body.breaks (takes_member takes) (readMember_breaksRightly hasItem rightly)
          refine broken.within ['{'] fun text pairs isBody => ?_
          refine ⟨[], .object (Ordered.putAll [] pairs), ?_⟩
          rw [List.append_nil]
          exact Or.inr (.object isBody)
      | scalar noArray noObject => exact scalar (depth + 1) noArray noObject failed

theorem read_breaksRightly {text : List Char} {fault : Fault}
    (failed : read .strict text = .error fault) : Breaks (Document depthLimit) text fault := by
  have document {spelled : List Char} {value : Value} (denoted : Denotes depthLimit spelled value)
      {gap : List Char} (isGap : Gap gap) : Document depthLimit (gap ++ (spelled ++ [])) value :=
    .spaced isGap denoted gap_nil
  by_cases marked : ∃ rest, text = '\uFEFF' :: rest
  · obtain ⟨rest, rfl⟩ := marked
    rw [read] at failed
    cases failed
    exact .atStart ⟨_, _, document (denotes_of_scalar scalar_zero) gap_nil⟩
  obtain ⟨before, isBefore, splitBefore⟩ := skipSpace_spec text
  rw [read_unmarked .strict (not_exists.mp marked)] at failed
  split at failed
  · rename_i other broken
    cases failed
    rw [splitBefore]
    refine (readValue_breaksRightly depthLimit _ _ broken).within before ?_
    exact fun text value denoted => ⟨[], value, document denoted isBefore⟩
  · rename_i value rest found
    obtain ⟨spelled, splitValue, denoted⟩ :=
      (readValue_spec depthLimit).elements _ value rest found
    obtain ⟨after, isAfter, splitAfter⟩ := skipSpace_spec rest
    split at failed
    · cases failed
    · cases failed
      have whole : text = (before ++ (spelled ++ after)) ++ skipSpace rest := by
        rw [List.append_assoc, List.append_assoc, ← splitAfter, ← splitValue, ← splitBefore]
      rw [whole]
      refine .malformed ⟨[], value, ?_⟩
      simpa using Document.spaced isBefore denoted isAfter

end PalletTypes.Json

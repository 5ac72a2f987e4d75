import PalletTypes.Proofs.Merge.Account
import PalletTypes.Proofs.Text.Quoted

/-!
The lines that tell which names were overridden. Whatever a name holds, its line stays one line
and is the line of no other name, so what a merge writes tells all names that it overrode.
-/

namespace PalletTypes

open Json

def Event.written (log : List Event) : String :=
  String.join (log.map fun event => event.line ++ "\n")

theorem Event.toList_written (log : List Event) :
    (written log).toList = (log.map fun event => event.line.toList).flatMap (· ++ ['\n']) := by
  simp [written, String.toList_join, List.flatMap_map]

theorem takeWhile_line {line : List Char} (noFeed : '\n' ∉ line) (rest : List Char) :
    (line ++ '\n' :: rest).takeWhile (· != '\n') = line := by
  have inside : ∀ character ∈ line, (character != '\n') = true :=
    fun character member => bne_iff_ne.mpr (ne_of_mem_of_not_mem member noFeed)
  rw [List.takeWhile_append_of_pos inside, List.takeWhile_cons_of_neg (by simp),
    List.append_nil]

theorem eq_of_lines_eq {first second : List (List Char)}
    (firstLines : ∀ line ∈ first, '\n' ∉ line) (secondLines : ∀ line ∈ second, '\n' ∉ line)
    (same : first.flatMap (· ++ ['\n']) = second.flatMap (· ++ ['\n'])) : first = second := by
  induction first generalizing second with
  | nil =>
      cases second with
      | nil => rfl
      | cons line second => simp at same
  | cons line first induction =>
      cases second with
      | nil => simp at same
      | cons other second =>
          rw [List.forall_mem_cons] at firstLines secondLines
          simp only [List.flatMap_cons, List.append_assoc, List.singleton_append] at same
          have sameLine := congrArg (List.takeWhile (· != '\n')) same
          rw [takeWhile_line firstLines.1, takeWhile_line secondLines.1] at sameLine
          subst sameLine
          have sameRest := (List.cons.inj (List.append_cancel_left same)).2
          exact congrArg (line :: ·) (induction firstLines.2 secondLines.2 sameRest)

namespace Merge

theorem printable_line (name : Text) :
    ∀ character ∈ (Event.overridden name).line.toList, isPrintable character = true := by
  have visible : ("DEBUG: type ".toList ++ " overridden".toList).all
      (fun character => decide (IsVisible character)) = true := by
    decide
  have around (character : Char)
      (outside : character ∈ "DEBUG: type ".toList ++ " overridden".toList) :
      isPrintable character = true := by
    apply isPrintable_of_isVisible
    exact of_decide_eq_true (List.all_eq_true.mp visible character outside)
  intro character member
  simp only [line_overridden, String.toList_append, Text.quoted, String.toList_ofList] at member
  rcases List.mem_append.mp member with member | after
  · rcases List.mem_append.mp member with before | inside
    · exact around character (List.mem_append_left _ before)
    · exact Quoted.printable_quote name character inside
  · exact around character (List.mem_append_right _ after)

theorem line_inj {first second : Text} :
    (Event.overridden first).line = (Event.overridden second).line ↔ first = second := by
  simp only [line_overridden, ← String.toList_inj, String.toList_append,
    List.append_left_inj, List.append_right_inj]
  rw [String.toList_inj, Text.quoted_inj]

theorem newline_not_mem_line (name : Text) : '\n' ∉ (Event.overridden name).line.toList :=
  fun member => not_mem_lineBreaks_of_isPrintable (printable_line name '\n' member) (.head _)

theorem written_inj {first second : List Text} :
    Event.written (first.map .overridden) = Event.written (second.map .overridden) ↔
      first = second := by
  refine ⟨fun same => ?_, fun same => same ▸ rfl⟩
  have lines (names : List Text) : ∀ line ∈ (names.map Event.overridden).map
      (fun event => event.line.toList), '\n' ∉ line := by
    intro line member
    rw [List.map_map] at member
    obtain ⟨name, _, rfl⟩ := List.mem_map.mp member
    exact newline_not_mem_line name
  rw [← String.toList_inj, Event.toList_written, Event.toList_written] at same
  have sameLines := eq_of_lines_eq (lines first) (lines second) same
  rw [List.map_map, List.map_map] at sameLines
  apply List.map_injective_iff.mpr ?_ sameLines
  intro name other sameLine
  exact line_inj.mp (String.toList_inj.mp sameLine)

/-- The line of an overridden name holds characters alone, all of which can be printed, and
no line break; no two names have the same line; and two merges write the same lines only if
they overrode the same names in the same order. -/
theorem lines_tell_overridden :
    (∀ name, ∀ codePoint ∈ Text.ofString (Event.overridden name).line,
      ∃ character, codePoint = .scalar character ∧ isPrintable character = true ∧
        ¬ IsControl character ∧ character ∉ lineBreaks) ∧
      (∀ first second,
        (Event.overridden first).line = (Event.overridden second).line ↔ first = second) ∧
      ∀ first second : List Members,
        Event.written ((ofLayers first).overridden.map .overridden) =
            Event.written ((ofLayers second).overridden.map .overridden) ↔
          repeated first = repeated second := by
  refine ⟨?_, fun _ _ => line_inj, fun first second => ?_⟩
  · intro name codePoint member
    obtain ⟨character, inside, rfl⟩ := List.mem_map.mp member
    have printable := printable_line name character inside
    exact ⟨character, rfl, printable, not_isControl_of_isPrintable printable,
      not_mem_lineBreaks_of_isPrintable printable⟩
  · rw [overridden_ofLayers, overridden_ofLayers, written_inj]

/-- A name that looks like the end of one line and the beginning of another. -/
def sampleForgery : Text :=
  Text.ofString "a' overridden\nDEBUG: type 'b"

theorem lines_tell_overridden_sampleForgery :
    (Event.overridden sampleForgery).line =
        "DEBUG: type \"a' overridden\\nDEBUG: type 'b\" overridden" ∧
      .scalar '\\' ∈ Text.ofString (Event.overridden sampleForgery).line ∧
      (∃ character, CodePoint.scalar '\\' = .scalar character ∧
        isPrintable character = true ∧ ¬ IsControl character ∧ character ∉ lineBreaks) ∧
      (Event.overridden sampleForgery).line ≠
        (Event.overridden (Text.ofString "a' overridden\\nDEBUG: type 'b")).line := by
  have line : (Event.overridden sampleForgery).line =
      "DEBUG: type \"a' overridden\\nDEBUG: type 'b\" overridden" := by
    decide +kernel
  have member : .scalar '\\' ∈ Text.ofString (Event.overridden sampleForgery).line := by
    rw [line]
    decide
  obtain ⟨clean, unambiguous, _⟩ := lines_tell_overridden
  refine ⟨line, member, clean sampleForgery _ member, ?_⟩
  rw [ne_eq, unambiguous]
  decide

end Merge

end PalletTypes

import PalletTypes.Proofs.Aggregation.Content
import PalletTypes.Proofs.Json.Role

/-!
How a rendered text is arranged, told from the text alone: which white space stands outside
of string literals, how every line begins and ends, and what the text is without that white
space.
-/

namespace PalletTypes

open Json

structure Arranged (text : Text) : Prop where
  /-- Only line feeds, indentation and the space after a colon. -/
  blanks : ∀ before codePoint after, text = before ++ codePoint :: after → Outside before →
    codePoint.isBlank = true →
      codePoint = .scalar '\n' ∨
        codePoint = .scalar ' ' ∧
          (before.getLast? = some (.scalar ':') ∨
            ∃ earlier spaces, before = earlier ++ .scalar '\n' :: spaces ∧
              ∀ space ∈ spaces, space = .scalar ' ')
  colons : ∀ before after, text = before ++ .scalar ':' :: after → Outside before →
    ∃ rest, after = .scalar ' ' :: rest ∧ StartsVisibly rest
  literals : ∀ before codePoint after, text = before ++ codePoint :: after →
    ¬Outside before → 0x20 ≤ codePoint.value
  lineStarts : ∀ before line, text = before ++ line →
    before = [] ∨ before.getLast? = some (.scalar '\n') → LineStart before line
  /-- The end of the text is the end of a line too. -/
  lineEnds : ∀ before after, text = before ++ after →
    after = [] ∨ after.head? = some (.scalar '\n') → EndsVisibly before
  empties : ∀ before start gap close after,
    text = before ++ start :: (gap ++ close :: after) → Outside before →
    start.opens = true → (∀ space ∈ gap, space.isBlank = true) → close.closes = true → gap = []

theorem role_of_layout (value : Value) {before after : Text} {codePoint : CodePoint}
    (split : value.layout 0 = before ++ codePoint :: after) : Role before after codePoint :=
  role_of_split (steps_tokens 0 value) rfl ((layout_eq_tokens 0 value).symm.trans split)

section Layouts

variable {codePoint : CodePoint} {before after : Text}

theorem eq_of_opens (opens : codePoint.opens = true) :
    codePoint = .scalar '[' ∨ codePoint = .scalar '{' := by
  simpa [CodePoint.opens] using opens

theorem eq_of_closes (closes : codePoint.closes = true) :
    codePoint = .scalar ']' ∨ codePoint = .scalar '}' := by
  simpa [CodePoint.closes] using closes

theorem lines_of_role (role : Role before after (.scalar '\n')) :
    EndsVisibly before ∧ LineStart (before ++ [.scalar '\n']) after := by
  cases role with
  | inside _ printable => exact absurd printable (by decide)
  | visible _ visible => cases visible
  | empty opens | opener opens => cases opens
  | lineFeed _ ends starts => exact ⟨ends, starts⟩

theorem isBlank_newLine (depth : Nat) :
    ∀ codePoint ∈ newLine depth, codePoint.isBlank = true :=
  List.forall_mem_map.mpr fun character member => (blank_newLine depth character member).1

theorem eq_nil_of_role {close : CodePoint} {gap : Text}
    (role : Role before (gap ++ close :: after) codePoint) (outside : Outside before)
    (opens : codePoint.opens = true) (blank : ∀ space ∈ gap, space.isBlank = true)
    (closes : close.closes = true) : gap = [] := by
  have visible : close.isBlank = false := by
    obtain rfl | rfl := eq_of_closes closes <;> rfl
  cases role with
  | inside notOutside => exact absurd outside notOutside
  | visible _ _ noOpener =>
      rw [noOpener] at opens
      cases opens
  | empty _ starts =>
      obtain ⟨first, isFirst, firstVisible⟩ := starts
      cases gap with
      | nil => rfl
      | cons space gap =>
          obtain rfl := Option.some.inj isFirst
          rw [blank space List.mem_cons_self] at firstVisible
          cases firstVisible
  | @opener _ first depth rest _ begins firstVisible noCloser =>
      -- The same text begins with either white space, so what is seen first is the same.
      have remains := congrArg (List.dropWhile CodePoint.isBlank) begins
      rw [List.dropWhile_append_of_pos blank, List.dropWhile_append_of_pos (isBlank_newLine depth),
        List.dropWhile_cons_of_neg (by simp [visible]),
        List.dropWhile_cons_of_neg (by simp [firstVisible])] at remains
      obtain ⟨rfl, _⟩ := List.cons.inj remains
      rw [noCloser] at closes
      cases closes
  | colon | space | lineFeed | indentation => cases opens

end Layouts

theorem arranged_layout (value : Value) : Arranged (value.layout 0) where
  blanks before codePoint after split outside blank := by
    cases role_of_layout value split with
    | inside notOutside => exact absurd outside notOutside
    | visible _ visible =>
        rw [visible] at blank
        cases blank
    | empty opens | opener opens =>
        obtain rfl | rfl := eq_of_opens opens <;> cases blank
    | colon => cases blank
    | space afterColon => exact .inr ⟨rfl, .inl afterColon⟩
    | lineFeed => exact .inl rfl
    | indentation begins spaces => exact .inr ⟨rfl, .inr ⟨_, _, begins, spaces⟩⟩
  colons before after split outside := by
    cases role_of_layout value split with
    | inside notOutside => exact absurd outside notOutside
    | visible _ _ _ noColon => exact absurd rfl noColon
    | empty opens | opener opens => cases opens
    | colon begins starts => exact ⟨_, begins, starts⟩
  literals before codePoint after split inside := by
    cases role_of_layout value split with
    | inside _ printable => exact printable
    | visible outside | lineFeed outside => exact absurd outside inside
    | empty opens | opener opens => obtain rfl | rfl := eq_of_opens opens <;> decide
    | colon | space | indentation => decide
  lineStarts before line split starts := by
    obtain rfl | afterFeed := starts
    · have whole : LineStart [] _ :=
        lineStart_of_steps (steps_tokens 0 value) rfl (.inl rfl) rfl
      rwa [← layout_eq_tokens, split] at whole
    · obtain ⟨earlier, rfl⟩ := List.getLast?_eq_some_iff.mp afterFeed
      rw [List.append_assoc] at split
      exact (lines_of_role (role_of_layout value split)).2
  lineEnds before after split ends := by
    cases after with
    | nil =>
        rw [List.append_nil, layout_eq_tokens] at split
        rw [← split]
        exact endsVisibly_of_steps (steps_tokens 0 value) rfl (.inl rfl)
    | cons first after =>
        obtain rfl : first = .scalar '\n' := by simpa using ends
        exact (lines_of_role (role_of_layout value split)).1
  empties before start gap close after split outside opens blank closes :=
    eq_nil_of_role (role_of_layout value split) outside opens blank closes

theorem strip_layout (value : Value) : strip .start (value.layout 0) = value.compact .minimal := by
  rw [layout_eq_tokens, compact_eq_tokens 0]
  exact strip_tokens (steps_tokens 0 value) 0

/-- Every rendered text is arranged, and is the compact text but for white space outside of
string literals. -/
theorem arranged_of_render {value : Value} {text : Text} (rendered : value.render = .ok text) :
    Arranged text ∧ strip .start text = value.compact .minimal := by
  obtain ⟨_, rfl⟩ := render_eq_ok_iff.mp rendered
  exact ⟨arranged_layout value, strip_layout value⟩

/-! Strings that look like the text around them, and containers that are empty. -/

def sampleLayered : Value :=
  .object [
    (Text.ofString "a\n \": [",
      .array [.integer (-1), .object [], .string (Text.ofString "] \\")]),
    (Text.ofString ":", .object [(Text.ofString "", .array [])])]

def sampleLayeredText : Text :=
  Text.ofString
    ("\x7b\n  \"a\\n \\\": [\": [\n    -1,\n    \x7b\x7d,\n    \"] \\\\\"\n  ],\n" ++
      "  \":\": \x7b\n    \"\": []\n  \x7d\n\x7d")

theorem arranged_of_render_layered :
    sampleLayered.render = .ok sampleLayeredText ∧ Arranged sampleLayeredText ∧
      strip .start sampleLayeredText = sampleLayered.compact .minimal := by
  have rendered : sampleLayered.render = .ok sampleLayeredText := rfl
  exact ⟨rendered, arranged_of_render rendered⟩

end PalletTypes

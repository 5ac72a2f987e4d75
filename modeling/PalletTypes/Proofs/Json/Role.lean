import PalletTypes.Proofs.Json.Outside

/-!
What every code point of a layout is there for: part of a string literal, a mark or a word
that is seen, or one of the three kinds of white space.
-/

namespace PalletTypes.Json

def StartsVisibly (text : Text) : Prop :=
  ∃ first ∈ text.head?, first.isBlank = false

def EndsVisibly (text : Text) : Prop :=
  ∃ last ∈ text.getLast?, last.isBlank = false

/-- The line is `level` steps in and holds something. It begins inside `level` containers,
or inside one more if it begins with the bracket that closes that one. -/
def LineStart (before line : Text) : Prop :=
  ∃ level first rest, line = List.replicate (2 * level) (.scalar ' ') ++ first :: rest ∧
    first.isBlank = false ∧ openedBy before = level + first.closes.toNat

theorem newLine_eq (depth : Nat) :
    newLine depth = .scalar '\n' :: List.replicate (2 * depth) (.scalar ' ') := by
  rw [newLine, Text.ofChars, List.map_cons, List.map_replicate]

theorem value_of_gap {opened : Nat} {last : Spot} {tokens : List Token}
    (steps : Steps ⟨.gap, opened⟩ tokens last) (ends : last.edge = .value) :
    ∃ first rest, tokens.flatMap Token.text = first :: rest ∧ first.isBlank = false ∧
      first.closes = false := by
  cases steps with
  | nil => cases ends
  | @cons _ _ _ token tokens step others =>
      cases step with
      | @word _ characters isWord =>
          obtain ⟨first, characters, rfl⟩ := List.exists_cons_of_ne_nil isWord.nonempty
          obtain ⟨visible, flat, _⟩ := isWord.solid first List.mem_cons_self
          refine ⟨_, _, rfl, visible, ?_⟩
          simp only [Flat, List.mem_cons, List.not_mem_nil, or_false, not_or] at flat
          simp [CodePoint.closes, flat]
      | literal => exact ⟨_, _, rfl, rfl, rfl⟩
      | @opener _ bracket => cases bracket <;> exact ⟨_, _, rfl, rfl, rfl⟩

theorem endsVisibly_append (text : Text) {last : Text} (ends : EndsVisibly last) :
    EndsVisibly (text ++ last) := by
  obtain ⟨codePoint, isLast, visible⟩ := ends
  exact ⟨codePoint, List.mem_getLast?_append_of_mem_getLast? isLast, visible⟩

theorem endsVisibly_of_step {before after : Spot} {token : Token}
    (step : Step before token after)
    (edge : after.edge = .value ∨ after.edge = .opener ∨ after.edge = .comma) :
    EndsVisibly token.text := by
  cases step with
  | @word _ characters isWord =>
      refine ⟨.scalar (characters.getLast isWord.nonempty), ?_,
        (isWord.solid _ (List.getLast_mem isWord.nonempty)).visible⟩
      simp [Token.text, Text.ofChars, List.getLast?_eq_some_getLast isWord.nonempty]
  | @literal _ text =>
      exact endsVisibly_append (.scalar '"' :: text.flatMap Escape.minimal) ⟨_, rfl, rfl⟩
  | @opener _ bracket | @empty _ bracket | @closer _ bracket =>
      cases bracket <;> exact ⟨_, rfl, rfl⟩
  | comma => exact ⟨_, rfl, rfl⟩
  | firstLine | nextLine | colon | lastLine => simp at edge

theorem endsVisibly_of_steps {first last : Spot} {tokens : List Token}
    (steps : Steps first tokens last) (start : first.edge = .gap)
    (edge : last.edge = .value ∨ last.edge = .opener ∨ last.edge = .comma) :
    EndsVisibly (tokens.flatMap Token.text) := by
  obtain rfl | ⟨earlier, token, rfl⟩ := tokens.eq_nil_or_concat'
  · cases steps
    rw [start] at edge
    simp at edge
  · obtain ⟨_, _, _, step, rest⟩ := steps.of_split
    cases rest
    rw [List.flatMap_append, List.flatMap_singleton]
    exact endsVisibly_append _ (endsVisibly_of_step step edge)

theorem exists_token_of_split {tokens : List Token} {before after : Text}
    {codePoint : CodePoint}
    (split : tokens.flatMap Token.text = before ++ codePoint :: after) :
    ∃ earlier token later left right, tokens = earlier ++ token :: later ∧
      token.text = left ++ codePoint :: right ∧
      before = earlier.flatMap Token.text ++ left ∧
      after = right ++ later.flatMap Token.text := by
  induction tokens generalizing before with
  | nil => simp at split
  | cons token tokens induction =>
      have further {rest : Text} (begins : before = token.text ++ rest)
          (others : tokens.flatMap Token.text = rest ++ codePoint :: after) :
          ∃ earlier found later left right, token :: tokens = earlier ++ found :: later ∧
            found.text = left ++ codePoint :: right ∧
            before = earlier.flatMap Token.text ++ left ∧
            after = right ++ later.flatMap Token.text := by
        obtain ⟨earlier, found, later, left, right, rfl, within, rfl, ends⟩ := induction others
        refine ⟨token :: earlier, found, later, left, right, rfl, within, ?_, ends⟩
        rw [begins, List.flatMap_cons, List.append_assoc]
      rw [List.flatMap_cons] at split
      obtain ⟨rest, begins, others⟩ | ⟨rest, within, others⟩ :=
        List.append_eq_append_iff.mp split
      · exact further begins others
      · cases rest with
        | nil =>
            rw [List.append_nil] at within
            exact further (within.symm.trans (List.append_nil _).symm) others.symm
        | cons first rest =>
            obtain ⟨rfl, rfl⟩ := List.cons.inj others
            exact ⟨[], token, tokens, before, rest, rfl, within, rfl, rfl⟩

/-- What a code point of a layout is there for. -/
inductive Role (before after : Text) : CodePoint → Prop
  | inside {codePoint : CodePoint} :
      ¬Outside before → 0x20 ≤ codePoint.value → Role before after codePoint
  | visible {codePoint : CodePoint} :
      Outside before → codePoint.isBlank = false → codePoint.opens = false →
        codePoint ≠ .scalar ':' → Role before after codePoint
  | empty {codePoint : CodePoint} :
      codePoint.opens = true → StartsVisibly after → Role before after codePoint
  | opener {codePoint first : CodePoint} {depth : Nat} {rest : Text} :
      codePoint.opens = true → after = newLine depth ++ first :: rest →
        first.isBlank = false → first.closes = false → Role before after codePoint
  | colon {rest : Text} :
      after = .scalar ' ' :: rest → StartsVisibly rest → Role before after (.scalar ':')
  | space : before.getLast? = some (.scalar ':') → Role before after (.scalar ' ')
  | lineFeed :
      Outside before → EndsVisibly before → LineStart (before ++ [.scalar '\n']) after →
        Role before after (.scalar '\n')
  | indentation {earlier spaces : Text} :
      before = earlier ++ .scalar '\n' :: spaces → (∀ space ∈ spaces, space = .scalar ' ') →
        Role before after (.scalar ' ')

theorem lineStart_of_steps {spot last : Spot} {tokens : List Token} {level : Nat}
    {before : Text} (steps : Steps spot tokens last) (ends : last.edge = .value)
    (here : spot = ⟨.gap, level⟩ ∨ spot = ⟨.lastLine, level + 1⟩)
    (opened : openedBy before = spot.opened) :
    LineStart before
      (List.replicate (2 * level) (.scalar ' ') ++ tokens.flatMap Token.text) := by
  obtain rfl | rfl := here
  · obtain ⟨first, rest, begins, visible, noCloser⟩ := value_of_gap steps ends
    refine ⟨level, first, rest, by rw [begins], visible, ?_⟩
    rw [opened, noCloser]
    rfl
  · cases steps with
    | nil => cases ends
    | cons step _ =>
        cases step with
        | @closer _ bracket => cases bracket <;> exact ⟨level, _, _, rfl, rfl, opened⟩

section Splits

variable {left right before after : Text} {codePoint only : CodePoint} {opened deepest : Nat}

theorem foldl_left_of_flat {characters : List Char}
    (flat : ∀ character ∈ characters, Flat character)
    (within : Text.ofChars characters = left ++ codePoint :: right) (opened deepest : Nat) :
    left.foldl Scan.next ⟨.outside, opened, deepest⟩ = ⟨.outside, opened, deepest⟩ := by
  obtain ⟨begun, others, rfl, rfl, _⟩ := List.map_eq_append_iff.mp within
  exact foldl_flat _ _ fun character member => flat character (List.mem_append_left _ member)

theorem eq_of_singleton_split (within : [only] = left ++ codePoint :: right) :
    left = [] ∧ codePoint = only ∧ right = [] := by
  cases left with
  | nil =>
      obtain ⟨rfl, rfl⟩ := List.cons.inj within
      exact ⟨rfl, rfl, rfl⟩
  | cons first left => simp at within

theorem role_word {characters : List Char} (isWord : IsWord characters)
    (within : Text.ofChars characters = left ++ codePoint :: right)
    (outside : Outside before) : Role before after codePoint := by
  obtain ⟨begun, others, rfl, rfl, rest⟩ := List.map_eq_append_iff.mp within
  obtain ⟨character, others, rfl, rfl, rfl⟩ := List.map_eq_cons_iff.mp rest
  obtain ⟨visible, flat, noColon⟩ := isWord.solid character (by simp)
  refine .visible outside visible ?_ (by simpa using noColon)
  simp only [Flat, List.mem_cons, List.not_mem_nil, or_false, not_or] at flat
  simp [CodePoint.opens, flat]

theorem role_literal {text : Text}
    (within : writeString .minimal text = left ++ codePoint :: right)
    (scanned : scanText before = left.foldl Scan.next ⟨.outside, opened, deepest⟩) :
    Role before after codePoint := by
  have printable : 0x20 ≤ codePoint.value :=
    printable_writeString text codePoint (by simp [within])
  cases left with
  | nil =>
      obtain ⟨rfl, _⟩ := List.cons.inj within
      exact .visible (congrArg Scan.place scanned) rfl rfl (by decide)
  | cons first left =>
      obtain ⟨rfl, rest⟩ := List.cons.inj within
      have others : text.flatMap Escape.minimal ++ [.scalar '"'] =
          left ++ codePoint :: right := rest
      refine .inside (fun outside => ?_) printable
      have inside := inside_literal opened deepest text
      rw [others] at inside
      exact inside.place ((congrArg Scan.place scanned).symm.trans outside)

theorem role_opener {bracket : Bracket} {last : Spot} {tokens : List Token}
    (steps : Steps ⟨.opener, opened⟩ tokens last) (ends : last.edge = .value) :
    Role before (tokens.flatMap Token.text) (.scalar bracket.opening) := by
  have opens : CodePoint.opens (.scalar bracket.opening) = true := by
    cases bracket <;> rfl
  cases steps with
  | nil => cases ends
  | cons step others =>
      cases step with
      | @empty _ bracket =>
          refine .empty opens ?_
          cases bracket <;> exact ⟨_, rfl, rfl⟩
      | firstLine =>
          obtain ⟨first, rest, begins, visible, noCloser⟩ := value_of_gap others ends
          have line : List.flatMap Token.text (.line opened :: _) =
              newLine opened ++ first :: rest :=
            congrArg (newLine opened ++ ·) begins
          exact .opener opens line visible noCloser

theorem role_colon {last : Spot} {tokens : List Token}
    (within : Token.colon.text = left ++ codePoint :: right)
    (steps : Steps ⟨.gap, opened⟩ tokens last) (ends : last.edge = .value) :
    Role (before ++ left) (right ++ tokens.flatMap Token.text) codePoint := by
  cases left with
  | nil =>
      obtain ⟨rfl, rfl⟩ := List.cons.inj within
      obtain ⟨first, rest, begins, visible, _⟩ := value_of_gap steps ends
      exact .colon rfl ⟨first, by simp [begins], visible⟩
  | cons first left =>
      obtain ⟨rfl, rest⟩ := List.cons.inj within
      obtain ⟨rfl, rfl, rfl⟩ := eq_of_singleton_split rest
      exact .space List.getLast?_concat

theorem role_newLine {depth : Nat} {earlier later : Text}
    (within : newLine depth = left ++ codePoint :: right) (outside : Outside earlier)
    (ends : EndsVisibly earlier)
    (starts : LineStart (earlier ++ [.scalar '\n'])
      (List.replicate (2 * depth) (.scalar ' ') ++ later)) :
    Role (earlier ++ left) (right ++ later) codePoint := by
  rw [newLine_eq] at within
  cases left with
  | nil =>
      obtain ⟨rfl, rfl⟩ := List.cons.inj within
      rw [List.append_nil]
      exact .lineFeed outside ends starts
  | cons first left =>
      obtain ⟨rfl, rest⟩ := List.cons.inj within
      have isReplicate : List.replicate (2 * depth) (.scalar ' ') =
          left ++ codePoint :: right := rest
      have spaces (space : CodePoint) (member : space ∈ left ++ codePoint :: right) :
          space = .scalar ' ' := by
        rw [← isReplicate] at member
        exact List.eq_of_mem_replicate member
      obtain rfl := spaces codePoint (by simp)
      exact .indentation rfl fun space member => spaces space (List.mem_append_left _ member)

end Splits

theorem role_of_split {last : Spot} {tokens : List Token}
    (steps : Steps ⟨.gap, 0⟩ tokens last) (ends : last.edge = .value) {before after : Text}
    {codePoint : CodePoint}
    (split : tokens.flatMap Token.text = before ++ codePoint :: after) :
    Role before after codePoint := by
  obtain ⟨earlier, token, later, left, right, rfl, within, rfl, rfl⟩ :=
    exists_token_of_split split
  obtain ⟨spot, next, stepsBefore, step, stepsAfter⟩ := steps.of_split
  -- Whole tokens stand before this one, so the scan comes to it outside of literals.
  obtain ⟨deepest, scanned⟩ := foldl_tokens stepsBefore 0
  have scan (left : Text) : scanText (earlier.flatMap Token.text ++ left) =
      left.foldl Scan.next ⟨.outside, spot.opened, deepest⟩ :=
    List.foldl_append.trans (congrArg (left.foldl Scan.next) scanned)
  have outside : Outside (earlier.flatMap Token.text) := congrArg Scan.place scanned
  have opened : openedBy (earlier.flatMap Token.text ++ [.scalar '\n']) = spot.opened :=
    congrArg Scan.opened (scan [.scalar '\n'])
  cases step with
  | word isWord =>
      refine role_word isWord within ?_
      rw [Outside, scan,
        foldl_left_of_flat (fun _ member => (isWord.solid _ member).flat) within]
  | literal => exact role_literal within (scan left)
  | @opener _ bracket =>
      obtain ⟨rfl, rfl, rfl⟩ := eq_of_singleton_split within
      exact role_opener stepsAfter ends
  | @empty _ bracket | @closer _ bracket =>
      obtain ⟨rfl, rfl, rfl⟩ := eq_of_singleton_split within
      rw [List.append_nil]
      cases bracket <;> exact .visible outside rfl rfl (by decide)
  | comma =>
      obtain ⟨rfl, rfl, rfl⟩ := eq_of_singleton_split within
      rw [List.append_nil]
      exact .visible outside rfl rfl (by decide)
  | colon => exact role_colon within stepsAfter ends
  | firstLine =>
      exact role_newLine within outside
        (endsVisibly_of_steps stepsBefore rfl (.inr (.inl rfl)))
        (lineStart_of_steps stepsAfter ends (.inl rfl) opened)
  | nextLine =>
      exact role_newLine within outside
        (endsVisibly_of_steps stepsBefore rfl (.inr (.inr rfl)))
        (lineStart_of_steps stepsAfter ends (.inl rfl) opened)
  | lastLine =>
      exact role_newLine within outside (endsVisibly_of_steps stepsBefore rfl (.inl rfl))
        (lineStart_of_steps stepsAfter ends (.inr rfl) opened)

end PalletTypes.Json

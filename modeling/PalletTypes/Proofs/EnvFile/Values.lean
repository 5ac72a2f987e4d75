import PalletTypes.Proofs.EnvFile.Grammar

/-!
A value of the grammar is taken as what it spells, bare or quoted, and what follows it on its
line is passed over.
-/

namespace PalletTypes.EnvFile

theorem isBlank_of_isSpace {character : Char} (space : isSpace character = true) :
    isBlank character = true := by
  simp only [isSpace, Bool.and_eq_true] at space
  exact space.1.1

theorem isLineEnd_of_isSpace {character : Char} (space : isSpace character = true) :
    isLineEnd character = false := by
  simp only [isSpace, Bool.and_eq_true, bne_iff_ne] at space
  simp [isLineEnd, space]

theorem bounds_of_isNameRest {character : Char} (isRest : isNameRest character = true) :
    48 ≤ character.toNat ∧ character.toNat ≤ 122 := by
  have ranges : ((decide ('A'.val ≤ character.val ∧ character.val ≤ 'Z'.val) ||
      ('a'.val ≤ character.val && character.val ≤ 'z'.val)) ||
      ('0'.val ≤ character.val && character.val ≤ '9'.val) || character == '_') = true := isRest
  simp only [Bool.or_eq_true, Bool.and_eq_true, decide_eq_true_eq, beq_iff_eq,
    UInt32.le_iff_toNat_le, Char.ext_iff, ← UInt32.toNat_inj, Char.reduceVal,
    UInt32.reduceToNat, Char.toNat_val] at ranges
  omega

theorem isBlank_of_isNameRest {character : Char} (isRest : isNameRest character = true) :
    isBlank character = false := by
  obtain ⟨low, high⟩ := bounds_of_isNameRest isRest
  simp only [isBlank, blankRanges, List.any_cons, List.any_nil, Bool.or_false,
    Bool.or_eq_false_iff, Bool.and_eq_false_iff, decide_eq_false_iff_not]
  omega

theorem isNameRest_of_isNameStart {character : Char} (starts : isNameStart character = true) :
    isNameRest character = true := by
  simp only [isNameStart, isNameRest, Char.isAlphanum, Bool.or_eq_true] at starts ⊢
  exact starts.imp_left Or.inl

theorem isBareName_of_isNameRest {character : Char} (isRest : isNameRest character = true) :
    isBareName character = true := by
  have noEquals : character ≠ '=' := by
    rintro rfl
    cases isRest
  have noComment : character ≠ '#' := by
    rintro rfl
    cases isRest
  simp [isBareName, noEquals, noComment, isBlank_of_isNameRest isRest]

inductive LineEnd : List Char → List Char → Prop
  | file : LineEnd [] []
  | feed {rest : List Char} : LineEnd ('\n' :: rest) rest

section Ends

variable {gap text after rest : List Char}

theorem skipSpaces_append (isGap : Gap gap) (text : List Char) :
    skipSpaces (gap ++ text) = skipSpaces text :=
  List.dropWhile_append_of_pos isGap

theorem skipSpaces_cons {character : Char} (visible : isSpace character = false)
    (text : List Char) : skipSpaces (character :: text) = character :: text :=
  List.dropWhile_cons_of_neg (by simp [visible])

theorem skipSpaces_lineEnd (ends : LineEnd after rest) : skipSpaces after = after := by
  cases ends <;> rfl

theorem restOfLine_append (oneLine : OneLine text) (ends : LineEnd after rest) :
    restOfLine (text ++ after) = text := by
  have stops : restOfLine after = [] := by cases ends <;> rfl
  rw [restOfLine, List.takeWhile_append_of_pos (by simpa [OneLine] using oneLine)]
  exact (congrArg (text ++ ·) stops).trans (List.append_nil text)

theorem afterLine_append (oneLine : OneLine text) (ends : LineEnd after rest) :
    afterLine (text ++ after) = after := by
  rw [afterLine, List.dropWhile_append_of_pos (by simpa [OneLine] using oneLine)]
  cases ends <;> rfl

theorem gap_nil : Gap [] := nofun

theorem oneLine_of_gap (isGap : Gap gap) : OneLine gap :=
  fun space member => isLineEnd_of_isSpace (isGap space member)

theorem takeLineEnd_append (isGap : Gap gap) (ends : LineEnd after rest) :
    takeLineEnd (gap ++ after) = .ok rest := by
  rw [takeLineEnd, skipSpaces_append isGap, skipSpaces_lineEnd ends]
  cases ends <;> rfl

theorem takeLineEnd_tail {tail : List Char} (isTail : Tail tail) (ends : LineEnd after rest) :
    takeLineEnd (skipComment (tail ++ after)) = .ok rest := by
  cases isTail with
  | blank isGap =>
      have stays : skipComment (tail ++ after) = tail ++ after := by
        rw [skipComment, skipSpaces_append isGap, skipSpaces_lineEnd ends]
        cases ends <;> rfl
      rw [stays]
      exact takeLineEnd_append isGap ends
  | @comment gap text isGap oneLine =>
      have skipped : skipComment (gap ++ '#' :: text ++ after) = after := by
        rw [skipComment, List.append_assoc, skipSpaces_append isGap, List.cons_append,
          skipSpaces_cons rfl]
        exact afterLine_append oneLine ends
      rw [skipped]
      exact takeLineEnd_append gap_nil ends

end Ends

theorem takeQuoted_append {quote : Char} {escape? : Char → Option Char}
    {content decoded : List Char} (quoted : Quoted quote escape? content decoded)
    (noBackslash : quote ≠ '\\') (rest : List Char) :
    takeQuoted quote (content ++ quote :: rest) = some (content, rest) := by
  induction quoted with
  | nil => simp [takeQuoted, noBackslash]
  | plain noQuote noEscape _ _ induction => simp [takeQuoted, noQuote, noEscape, induction]
  | escape _ _ induction => simp [takeQuoted, induction]
  | kept _ _ _ induction => simp [takeQuoted, induction]

theorem decodeEscapes_of_quoted {quote : Char} {escape? : Char → Option Char}
    {content decoded : List Char} (quoted : Quoted quote escape? content decoded)
    (backslash : (escape? '\\').isSome) : decodeEscapes escape? content = decoded := by
  induction quoted with
  | nil => rfl
  | plain _ noEscape _ _ induction => simp [decodeEscapes, noEscape, induction]
  | escape decodes _ induction => simp [decodeEscapes, decodes, induction]
  | @kept letter _ _ keeps _ _ induction =>
      have noEscape : letter ≠ '\\' := by
        rintro rfl
        rw [keeps] at backslash
        cases backslash
      simp [decodeEscapes, keeps, noEscape, induction]

theorem trimEnd_append {value gap : List Char}
    (trimmed : ∃ last ∈ value.getLast?, isBlank last = false)
    (blank : ∀ space ∈ gap, isBlank space = true) : trimEnd (value ++ gap) = value := by
  obtain ⟨last, isLast, visible⟩ := trimmed
  obtain ⟨before, rfl⟩ := List.getLast?_eq_some_iff.mp isLast
  rw [trimEnd, List.reverse_append, List.dropWhile_append_of_pos (by simpa using blank)]
  simp [visible]

theorem dropComment_append {text rest : List Char}
    (noComment : ∀ before space after, text = before ++ space :: after →
      isBlank space = true → (skipBlanks (after ++ rest)).head? ≠ some '#') :
    dropComment (text ++ rest) = text ++ dropComment rest := by
  induction text with
  | nil => rfl
  | cons character text induction =>
      have others : dropComment (text ++ rest) = text ++ dropComment rest :=
        induction fun before space after split =>
          noComment (character :: before) space after (congrArg (character :: ·) split)
      have stays : ¬(isBlank character = true ∧
          (skipBlanks (text ++ rest)).head? = some '#') := fun ⟨blank, comment⟩ =>
        noComment [] character text rfl blank comment
      rw [List.cons_append, dropComment, if_neg stays, others, List.cons_append]

theorem Bare.skipBlanks_head {value : List Char} (bare : Bare value)
    {before after : List Char} {space : Char} (split : value = before ++ space :: after)
    (blank : isBlank space = true) (rest : List Char) :
    (skipBlanks (after ++ rest)).head? ≠ some '#' := by
  induction after generalizing before space with
  | nil =>
      obtain ⟨last, isLast, visible⟩ := bare.trimmed
      rw [split, List.getLast?_concat] at isLast
      obtain rfl := Option.some.inj isLast
      rw [blank] at visible
      cases visible
  | cons character after induction =>
      cases visible : isBlank character with
      | true =>
          rw [skipBlanks, List.cons_append, List.dropWhile_cons_of_pos visible]
          have further : value = (before ++ [space]) ++ character :: after := by simp [split]
          exact induction further visible
      | false =>
          rw [skipBlanks, List.cons_append, List.dropWhile_cons_of_neg (by simp [visible])]
          rintro same
          obtain rfl := Option.some.inj same
          rw [bare.noComment before space after split] at blank
          cases blank

theorem dropComment_gap {gap rest : List Char} (isGap : Gap gap)
    (noComment : (skipBlanks rest).head? ≠ some '#') :
    dropComment (gap ++ rest) = gap ++ dropComment rest := by
  refine dropComment_append fun before space after split _ => ?_
  have blank : ∀ character ∈ after, isBlank character = true := fun character member =>
    isBlank_of_isSpace (isGap character (by simp [split, member]))
  rwa [skipBlanks, List.dropWhile_append_of_pos blank]

theorem dropComment_eq_self {gap : List Char} (isGap : Gap gap) : dropComment gap = gap := by
  have kept := @dropComment_gap gap [] isGap nofun
  rwa [dropComment, List.append_nil] at kept

theorem dropComment_tail {tail : List Char} (isTail : Tail tail)
    (setOff : tail.head? ≠ some '#') : ∀ space ∈ dropComment tail, isBlank space = true := by
  cases isTail with
  | blank isGap =>
      rw [dropComment_eq_self isGap]
      exact fun space member => isBlank_of_isSpace (isGap space member)
  | @comment gap text isGap =>
      cases gap with
      | nil => exact absurd rfl setOff
      | cons space gap =>
          have blank : ∀ character ∈ gap, isBlank character = true := fun character member =>
            isBlank_of_isSpace (isGap character (List.mem_cons_of_mem space member))
          have begins : (skipBlanks (gap ++ '#' :: text)).head? = some '#' := by
            rw [skipBlanks, List.dropWhile_append_of_pos blank]
            rfl
          rw [List.cons_append, dropComment,
            if_pos ⟨isBlank_of_isSpace (isGap space List.mem_cons_self), begins⟩]
          nofun

theorem Tail.oneLine {tail : List Char} (isTail : Tail tail) : OneLine tail := by
  cases isTail with
  | blank isGap => exact oneLine_of_gap isGap
  | comment isGap oneLine =>
      exact List.forall_mem_append.mpr
        ⟨oneLine_of_gap isGap, List.forall_mem_cons.mpr ⟨rfl, oneLine⟩⟩

section Values

variable {gap value written tail after rest : List Char}

theorem Bare.exists_cons (bare : Bare value) : ∃ first others, value = first :: others ∧
    isBlank first = false ∧ first ≠ '#' ∧ first ≠ '\'' ∧ first ≠ '"' := by
  obtain ⟨first, isFirst, visible, other⟩ := bare.start
  obtain ⟨others, rfl⟩ := List.head?_eq_some_iff.mp isFirst
  simp only [List.mem_cons, List.not_mem_nil, or_false, not_or] at other
  exact ⟨first, others, rfl, visible, other⟩

theorem bareValue_append (isGap : Gap gap) (bare : Bare value) (isTail : Tail tail)
    (setOff : tail.head? ≠ some '#') (ends : LineEnd after rest) :
    bareValue (gap ++ (value ++ (tail ++ after))) = value := by
  have oneLine : OneLine (gap ++ (value ++ tail)) :=
    List.forall_mem_append.mpr ⟨oneLine_of_gap isGap,
      List.forall_mem_append.mpr ⟨bare.oneLine, isTail.oneLine⟩⟩
  have line := restOfLine_append oneLine ends
  have noComment : dropComment (value ++ tail) = value ++ dropComment tail :=
    dropComment_append fun _ _ _ split blank => bare.skipBlanks_head split blank tail
  obtain ⟨first, others, rfl, visible, other, _⟩ := bare.exists_cons
  have starts : (skipBlanks (first :: others ++ tail)).head? ≠ some '#' := by
    rw [skipBlanks, List.cons_append, List.dropWhile_cons_of_neg (by simp [visible])]
    simpa using other
  have noSpace : isSpace first = false := by simp [isSpace, visible]
  simp only [List.append_assoc] at line
  rw [bareValue, line, dropComment_gap isGap starts, noComment, skipSpaces_append isGap,
    List.cons_append, skipSpaces_cons noSpace]
  exact trimEnd_append bare.trimmed (dropComment_tail isTail setOff)

theorem bareValue_gap (isGap : Gap gap) (ends : LineEnd after rest) :
    bareValue (gap ++ after) = [] := by
  have passed := skipSpaces_append isGap []
  rw [List.append_nil] at passed
  rw [bareValue, restOfLine_append (oneLine_of_gap isGap) ends, dropComment_eq_self isGap,
    passed]
  rfl

/-- A value is taken as what it spells, and so is the end of its line. -/
theorem takeValue_append (isGap : Gap gap) (isWritten : Written Quoted written value)
    (ends : LineEnd after rest) :
    ∃ others, takeValue (gap ++ (written ++ after)) = .ok (value, others) ∧
      takeLineEnd (skipComment others) = .ok rest := by
  cases isWritten with
  | empty =>
      refine ⟨after, ?_, takeLineEnd_tail (.blank gap_nil) ends⟩
      have taken : takeValue (gap ++ after) =
          .ok (bareValue (gap ++ after), afterLine (gap ++ after)) := by
        rw [takeValue, skipSpaces_append isGap, skipSpaces_lineEnd ends]
        cases ends <;> rfl
      rw [List.nil_append, taken, bareValue_gap isGap ends,
        afterLine_append (oneLine_of_gap isGap) ends]
  | @bare _ tail isBare isTail setOff =>
      refine ⟨after, ?_, takeLineEnd_tail (.blank gap_nil) ends⟩
      have oneLine : OneLine (gap ++ (value ++ tail)) :=
        List.forall_mem_append.mpr ⟨oneLine_of_gap isGap,
          List.forall_mem_append.mpr ⟨isBare.oneLine, isTail.oneLine⟩⟩
      have passed := afterLine_append oneLine ends
      have isValue := bareValue_append isGap isBare isTail setOff ends
      obtain ⟨first, others, rfl, visible, _, noSingle, noDouble⟩ := isBare.exists_cons
      have noSpace : isSpace first = false := by simp [isSpace, visible]
      simp only [List.append_assoc, List.cons_append] at passed isValue ⊢
      rw [takeValue, skipSpaces_append isGap, skipSpaces_cons noSpace]
      split
      · rename_i same
        exact absurd (List.cons.inj same).1 noSingle
      · rename_i same
        exact absurd (List.cons.inj same).1 noDouble
      · rw [isValue, passed]
  | single quoted isTail =>
      refine ⟨_, ?_, takeLineEnd_tail isTail ends⟩
      rw [List.cons_append, takeValue, skipSpaces_append isGap, skipSpaces_cons rfl,
        List.append_assoc, List.cons_append]
      simp only [takeQuoted_append quoted (by decide), decodeEscapes_of_quoted quoted rfl]
  | double quoted isTail =>
      refine ⟨_, ?_, takeLineEnd_tail isTail ends⟩
      rw [List.cons_append, takeValue, skipSpaces_append isGap, skipSpaces_cons rfl,
        List.append_assoc, List.cons_append]
      simp only [takeQuoted_append quoted (by decide), decodeEscapes_of_quoted quoted rfl]

end Values

end PalletTypes.EnvFile

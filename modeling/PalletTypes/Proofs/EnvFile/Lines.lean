import Mathlib.Data.Bool.AllAny
import PalletTypes.Proofs.EnvFile.Values
import PalletTypes.Proofs.Text.Newline

/-!
A line of the grammar is taken as what it spells, and a file as its lines one after another.
-/

namespace PalletTypes.EnvFile

section Names

variable {exported name before gap written value after rest : List Char}

theorem isBareName_of_isSpace {space : Char} (isSpace : isSpace space = true) :
    isBareName space = false := by
  simp [isBareName, isBlank_of_isSpace isSpace]

theorem isNameRest_of_stop {stop : Char} (stops : isBareName stop = false) :
    isNameRest stop = false :=
  Bool.eq_false_iff.mpr fun isRest => by
    rw [isBareName_of_isNameRest isRest] at stops
    cases stops

theorem exists_cons_of_gap (isGap : Gap before) (others : List Char) :
    ∃ stop rest, before ++ '=' :: others = stop :: rest ∧ isBareName stop = false := by
  cases before with
  | nil => exact ⟨_, _, rfl, rfl⟩
  | cons space before =>
      exact ⟨_, _, rfl, isBareName_of_isSpace (isGap space List.mem_cons_self)⟩

theorem IsName.exists_cons (isName : IsName name) : ∃ first others, name = first :: others ∧
    isNameStart first = true ∧ isNameRest first = true := by
  obtain ⟨first, isFirst, starts⟩ := isName.start
  obtain ⟨others, rfl⟩ := List.head?_eq_some_iff.mp isFirst
  exact ⟨first, others, rfl, starts, isName.rest first List.mem_cons_self⟩

theorem takeWhile_stop {kind : Char → Bool} (all : ∀ character ∈ name, kind character = true)
    {stop : Char} (stops : kind stop = false) (rest : List Char) :
    (name ++ stop :: rest).takeWhile kind = name := by
  rw [List.takeWhile_append_of_pos all, List.takeWhile_cons_of_neg (by simp [stops]),
    List.append_nil]

/-- A name that begins like the word before names is not taken for it. -/
theorem skipExport_name (isName : IsName name) {stop : Char}
    (stops : isBareName stop = false) (rest : List Char) :
    skipExport (name ++ stop :: rest) = name ++ stop :: rest := by
  have isTaken := takeWhile_stop isName.rest (isNameRest_of_stop stops) rest
  unfold skipExport
  split
  · rename_i space others same
    -- White space ends a name, so the word before it would be all of the name.
    refine if_neg fun isSpace => isName.notExport ?_
    have spaceStops := isNameRest_of_stop (isBareName_of_isSpace isSpace)
    have wordRest : ∀ character ∈ exportWord, isNameRest character = true :=
      List.all_eq_true.mp rfl
    rw [← isTaken, same]
    exact takeWhile_stop wordRest spaceStops others
  · rfl

theorem skipExport_append (isExported : Exported exported) (isName : IsName name) {stop : Char}
    (stops : isBareName stop = false) (rest : List Char) :
    skipExport (exported ++ (name ++ stop :: rest)) = name ++ stop :: rest := by
  cases isExported with
  | no => exact skipExport_name isName stops rest
  | @yes space gap isSpace isGap =>
      obtain ⟨first, others, rfl, _, isRest⟩ := isName.exists_cons
      have noSpace : EnvFile.isSpace first = false := by
        simp [EnvFile.isSpace, isBlank_of_isNameRest isRest]
      have skipped := skipSpaces_append isGap (first :: others ++ stop :: rest)
      rw [List.append_assoc]
      exact (if_pos isSpace).trans (skipped.trans (skipSpaces_cons noSpace _))

theorem takeName_append (isName : IsName name) {stop : Char} (stops : isBareName stop = false)
    (rest : List Char) : takeName (name ++ stop :: rest) = .ok (some name, stop :: rest) := by
  have bare : ∀ character ∈ name, isBareName character = true :=
    fun character member => isBareName_of_isNameRest (isName.rest character member)
  have isTaken := takeWhile_stop bare stops rest
  have isDropped : (name ++ stop :: rest).dropWhile isBareName = stop :: rest := by
    rw [List.dropWhile_append_of_pos bare, List.dropWhile_cons_of_neg (by simp [stops])]
  obtain ⟨first, others, rfl, starts, _⟩ := isName.exists_cons
  unfold takeName
  split
  · rename_i same
    rw [(List.cons.inj same).1] at starts
    cases starts
  · rename_i same
    rw [(List.cons.inj same).1] at starts
    cases starts
  · rw [isTaken, isDropped]

end Names

def Assignment.binding (assignment : Assignment) : Binding :=
  ⟨assignment.1, some assignment.2⟩

section Bindings

variable {exported name before gap written value text after rest : List Char}

theorem takeBinding_assignment (isExported : Exported exported) (isName : IsName name)
    (gapBefore : Gap before) (gapAfter : Gap gap) (isWritten : Written Quoted written value)
    (ends : LineEnd after rest) :
    takeBinding (exported ++ (name ++ (before ++ '=' :: (gap ++ (written ++ after))))) =
      .ok (some (Assignment.binding (String.ofList name, String.ofList value)), rest) := by
  obtain ⟨remains, valueTaken, endTaken⟩ := takeValue_append gapAfter isWritten ends
  obtain ⟨stop, others, begins, stops⟩ :=
    exists_cons_of_gap gapBefore (gap ++ (written ++ after))
  have assigned : takeAssigned (skipSpaces (stop :: others)) = .ok (some value, remains) := by
    rw [← begins, skipSpaces_append gapBefore, skipSpaces_cons rfl, takeAssigned, valueTaken]
    rfl
  rw [takeBinding, begins, skipExport_append isExported isName stops,
    takeName_append isName stops]
  simp only [assigned, endTaken]
  rfl

theorem takeBinding_comment (oneLine : OneLine text) (ends : LineEnd after rest) :
    takeBinding ('#' :: (text ++ after)) = .ok (none, rest) := by
  have skipped : skipComment ('#' :: (text ++ after)) = after :=
    afterLine_append oneLine ends
  have endTaken := takeLineEnd_append gap_nil ends
  have taken : takeBinding ('#' :: (text ++ after)) =
      (takeLineEnd (skipComment ('#' :: (text ++ after)))).map fun rest => (none, rest) := rfl
  rw [taken, skipped]
  exact congrArg (Except.map fun rest => (none, rest)) endTaken

theorem bindingsWithin_nil (steps : Nat) : bindingsWithin steps [] = [] := by
  cases steps <;> rfl

theorem bindingsWithin_succ (steps : Nat) (text : List Char) :
    bindingsWithin (steps + 1) text =
      (takeNext text).1.toList ++ bindingsWithin steps (takeNext text).2 := by
  cases text with
  | nil => exact (bindingsWithin_nil steps).symm
  | cons character text => rfl

theorem bindingsWithin_append (steps : Nat) {blanks : List Char}
    (blank : ∀ space ∈ blanks, isBlank space = true) (text : List Char) :
    bindingsWithin steps (blanks ++ text) = bindingsWithin steps text := by
  have same : takeNext (blanks ++ text) = takeNext text := by
    rw [takeNext, skipBlanks, List.dropWhile_append_of_pos blank, takeNext, skipBlanks]
  cases steps with
  | zero => rfl
  | succ steps => rw [bindingsWithin_succ, same, bindingsWithin_succ]

theorem bindingsWithin_of_takeBinding {text rest : List Char} {binding : Option Binding}
    {first : Char} (visible : isBlank first = false)
    (taken : takeBinding (first :: text) = .ok (binding, rest)) (steps : Nat) :
    bindingsWithin (steps + 1) (first :: text) =
      binding.toList ++ bindingsWithin steps rest := by
  have isTaken : takeNext (first :: text) = (binding, rest) := by
    rw [takeNext, skipBlanks, List.dropWhile_cons_of_neg (by simp [visible])]
    simp only [taken]
  rw [bindingsWithin_succ, isTaken]

end Bindings

theorem blank_of_gap {gap : List Char} (isGap : Gap gap) :
    ∀ space ∈ gap, isBlank space = true :=
  fun space member => isBlank_of_isSpace (isGap space member)

theorem exists_cons_of_exported {exported name : List Char} (isExported : Exported exported)
    (isName : IsName name) (rest : List Char) : ∃ first others,
      exported ++ (name ++ rest) = first :: others ∧ isNameStart first = true := by
  cases isExported with
  | no =>
      obtain ⟨first, others, rfl, starts, _⟩ := isName.exists_cons
      exact ⟨first, _, rfl, starts⟩
  | yes => exact ⟨'e', _, rfl, rfl⟩

theorem LineEnd.length_le {after rest : List Char} (ends : LineEnd after rest) :
    rest.length ≤ after.length := by
  cases ends with
  | file => exact Nat.le_refl 0
  | feed => exact Nat.le_succ _

theorem bindingsWithin_body {gap body after rest : List Char} {first : Char}
    {binding : Option Binding} (isGap : Gap gap) (visible : isBlank first = false)
    (taken : takeBinding (first :: body ++ after) = .ok (binding, rest))
    (ends : LineEnd after rest) {steps : Nat}
    (enough : (gap ++ first :: body ++ after).length ≤ steps) :
    ∃ fewer, rest.length ≤ fewer ∧ bindingsWithin steps (gap ++ first :: body ++ after) =
      binding.toList ++ bindingsWithin fewer rest := by
  have shorter := ends.length_le
  simp only [List.length_append, List.length_cons] at enough
  obtain ⟨fewer, rfl⟩ : ∃ fewer, steps = fewer + 1 := ⟨steps - 1, by omega⟩
  refine ⟨fewer, by omega, ?_⟩
  rw [List.append_assoc, bindingsWithin_append _ (blank_of_gap isGap)]
  exact bindingsWithin_of_takeBinding visible taken fewer

/-- A step takes a line as what it spells, and no more than the line. -/
theorem bindingsWithin_line {line after rest : List Char} {spelled : Option Assignment}
    (isLine : Line Quoted line spelled) (ends : LineEnd after rest) {steps : Nat}
    (enough : (line ++ after).length ≤ steps) : ∃ fewer, rest.length ≤ fewer ∧
      bindingsWithin steps (line ++ after) =
        (spelled.map Assignment.binding).toList ++ bindingsWithin fewer rest := by
  cases isLine with
  | blank isGap =>
      -- No step is taken here: the one for a later line passes over this one.
      have shorter := ends.length_le
      rw [List.length_append] at enough
      refine ⟨steps, by omega, ?_⟩
      rw [bindingsWithin_append steps (blank_of_gap isGap)]
      cases ends with
      | file => rfl
      | feed =>
          have blank : ∀ space ∈ ['\n'], isBlank space = true := List.all_eq_true.mp rfl
          exact bindingsWithin_append steps blank rest
  | comment isGap oneLine =>
      exact bindingsWithin_body isGap rfl (takeBinding_comment oneLine ends) ends enough
  | @assignment gap exported name before gapAfter written value isGap isExported isName
      gapBefore isGapAfter isWritten =>
      have taken := takeBinding_assignment isExported isName gapBefore isGapAfter isWritten ends
      obtain ⟨first, others, begins, starts⟩ :=
        exists_cons_of_exported isExported isName (before ++ '=' :: (gapAfter ++ written))
      have visible : isBlank first = false :=
        isBlank_of_isNameRest (isNameRest_of_isNameStart starts)
      have same : first :: others ++ after =
          exported ++ (name ++ (before ++ '=' :: (gapAfter ++ (written ++ after)))) := by
        rw [← begins]
        simp only [List.append_assoc, List.cons_append]
      rw [← same] at taken
      rw [begins] at enough ⊢
      exact bindingsWithin_body isGap visible taken ends enough

theorem Quoted.oneLine {quote : Char} {escape? : Char → Option Char}
    {content decoded : List Char} (quoted : Quoted quote escape? content decoded)
    (letters : ∀ letter, isLineEnd letter = true → escape? letter = none) :
    OneLine content := by
  induction quoted with
  | nil => nofun
  | plain _ _ inLine _ induction => exact List.forall_mem_cons.mpr ⟨inLine, induction⟩
  | @escape letter _ _ _ decodes _ induction =>
      have inLine : isLineEnd letter = false := Bool.eq_false_iff.mpr fun isEnd => by
        rw [letters letter isEnd] at decodes
        cases decodes
      exact List.forall_mem_cons.mpr ⟨rfl, List.forall_mem_cons.mpr ⟨inLine, induction⟩⟩
  | kept _ inLine _ induction =>
      exact List.forall_mem_cons.mpr ⟨rfl, List.forall_mem_cons.mpr ⟨inLine, induction⟩⟩

theorem eq_of_isLineEnd {character : Char} (isEnd : isLineEnd character = true) :
    character = '\n' ∨ character = '\r' := by
  simpa [isLineEnd] using isEnd

theorem Written.oneLine {written value : List Char} (isWritten : Written Quoted written value) :
    OneLine written := by
  have quotes {quote : Char} {content tail : List Char} (inLine : isLineEnd quote = false)
      (oneLine : OneLine content) (isTail : Tail tail) :
      OneLine (quote :: (content ++ quote :: tail)) :=
    List.forall_mem_cons.mpr ⟨inLine, List.forall_mem_append.mpr
      ⟨oneLine, List.forall_mem_cons.mpr ⟨inLine, isTail.oneLine⟩⟩⟩
  cases isWritten with
  | empty => nofun
  | bare isBare isTail => exact List.forall_mem_append.mpr ⟨isBare.oneLine, isTail.oneLine⟩
  | single quoted isTail =>
      refine quotes rfl (quoted.oneLine fun letter isEnd => ?_) isTail
      obtain rfl | rfl := eq_of_isLineEnd isEnd <;> rfl
  | double quoted isTail =>
      refine quotes rfl (quoted.oneLine fun letter isEnd => ?_) isTail
      obtain rfl | rfl := eq_of_isLineEnd isEnd <;> rfl

theorem Exported.oneLine {exported : List Char} (isExported : Exported exported) :
    OneLine exported := by
  cases isExported with
  | no => nofun
  | yes isSpace isGap =>
      exact List.forall_mem_append.mpr ⟨List.all_iff_forall_prop.mp rfl,
        List.forall_mem_cons.mpr ⟨isLineEnd_of_isSpace isSpace, oneLine_of_gap isGap⟩⟩

theorem IsName.oneLine {name : List Char} (isName : IsName name) : OneLine name := by
  intro character member
  refine Bool.eq_false_iff.mpr fun isEnd => ?_
  have isRest := isName.rest character member
  obtain rfl | rfl := eq_of_isLineEnd isEnd <;> cases isRest

theorem Line.oneLine {line : List Char} {spelled : Option Assignment}
    (isLine : Line Quoted line spelled) : OneLine line := by
  cases isLine with
  | blank isGap => exact oneLine_of_gap isGap
  | comment isGap oneLine => exact (Tail.comment isGap oneLine).oneLine
  | assignment isGap isExported isName gapBefore gapAfter isWritten =>
      exact List.forall_mem_append.mpr ⟨oneLine_of_gap isGap,
        List.forall_mem_append.mpr ⟨isExported.oneLine,
          List.forall_mem_append.mpr ⟨isName.oneLine,
            List.forall_mem_append.mpr ⟨oneLine_of_gap gapBefore,
              List.forall_mem_cons.mpr ⟨rfl,
                List.forall_mem_append.mpr
                  ⟨oneLine_of_gap gapAfter, isWritten.oneLine⟩⟩⟩⟩⟩⟩

theorem Line.skipByteOrderMark_append {line after rest : List Char} {spelled : Option Assignment}
    (isLine : Line Quoted line spelled) (ends : LineEnd after rest) :
    skipByteOrderMark (line ++ after) = line ++ after := by
  have unchanged {text : List Char} (other : text.head? ≠ some '\uFEFF') :
      skipByteOrderMark text = text := by
    unfold skipByteOrderMark
    split
    · exact absurd rfl other
    · rfl
  have gaps {gap text : List Char} (isGap : Gap gap) (other : text.head? ≠ some '\uFEFF') :
      (gap ++ text).head? ≠ some '\uFEFF' := by
    cases gap with
    | nil => exact other
    | cons space gap =>
        rintro same
        have isSpace := isGap space List.mem_cons_self
        obtain rfl := Option.some.inj same
        cases isSpace
  have noMark : after.head? ≠ some '\uFEFF' := by cases ends <;> simp
  apply unchanged
  cases isLine with
  | blank isGap => exact gaps isGap noMark
  | comment isGap =>
      rw [List.append_assoc]
      exact gaps isGap (by simp)
  | @assignment gap exported name before gapAfter written value isGap isExported isName =>
      obtain ⟨first, others, begins, starts⟩ :=
        exists_cons_of_exported isExported isName (before ++ '=' :: (gapAfter ++ written))
      rw [begins, List.append_assoc]
      refine gaps isGap fun same => ?_
      obtain rfl := Option.some.inj same
      cases starts

section Files

open Newline

variable {text : List Char} {assignments : List Assignment}

theorem noReturn_of_oneLine (oneLine : OneLine text) : '\r' ∉ text := fun member => by
  cases oneLine '\r' member

theorem normalize_line {line ending : List Char} (oneLine : OneLine line)
    (isEnding : ending = ['\n'] ∨ ending = ['\r', '\n']) (rest : List Char) :
    normalize (line ++ (ending ++ rest)) = line ++ '\n' :: normalize rest := by
  rw [normalize_append line (noReturn_of_oneLine oneLine)]
  obtain rfl | rfl := isEnding
  · exact congrArg (line ++ ·) (normalize_cons (by decide) rest)
  · exact congrArg (line ++ ·) (normalize_pair rest)

theorem bindingsWithin_file (isFile : File Quoted text assignments) {steps : Nat}
    (enough : (normalize text).length ≤ steps) :
    bindingsWithin steps (normalize text) = assignments.map Assignment.binding := by
  induction isFile generalizing steps with
  | @last line spelled isLine =>
      rw [normalize_eq_self (noReturn_of_oneLine isLine.oneLine)] at enough ⊢
      rw [← List.append_nil line] at enough
      obtain ⟨fewer, _, taken⟩ := bindingsWithin_line isLine .file enough
      rw [List.append_nil, bindingsWithin_nil, List.append_nil] at taken
      rw [taken]
      cases spelled <;> rfl
  | @line line ending rest spelled others isLine isEnding _ induction =>
      rw [normalize_line isLine.oneLine isEnding] at enough ⊢
      obtain ⟨fewer, enoughLeft, taken⟩ := bindingsWithin_line isLine .feed enough
      rw [taken, induction enoughLeft]
      cases spelled <;> rfl

theorem bindings_of_file (isFile : File Quoted text assignments) :
    bindings (normalize text) = assignments.map Assignment.binding := by
  have noMark : skipByteOrderMark (normalize text) = normalize text := by
    cases isFile with
    | last isLine =>
        rw [normalize_eq_self (noReturn_of_oneLine isLine.oneLine)]
        have unchanged := isLine.skipByteOrderMark_append .file
        rwa [List.append_nil] at unchanged
    | line isLine isEnding =>
        rw [normalize_line isLine.oneLine isEnding]
        exact isLine.skipByteOrderMark_append .feed
  rw [bindings, noMark]
  exact bindingsWithin_file isFile (Nat.le_refl _)

end Files

end PalletTypes.EnvFile

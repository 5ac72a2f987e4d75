import PalletTypes.Proofs.Configuration
import PalletTypes.Proofs.EnvFile.Evaluation

/-!
What the nearest environment file makes of the variable that names the root, told from the
lines of the file.
-/

namespace PalletTypes.Site

open EnvFile

variable {site : Site} {files : List (Option (List Char))} {text : List Char}
  {assignments : List Assignment}

/-- The variable holds what the last line for it was evaluated to, and nothing if there is
no such line, unless a null byte would have to be set. -/
theorem root_of_file (nearest : files.findSome? id = some text)
    (isFile : File Quoted text assignments)
    (enabled : site.environment.get? disablingVariable = none)
    (absent : site.environment.get? rootVariable = none) : ∃ history,
      (∀ other, Evaluates site.environment [] assignments other ↔ other = history) ∧
      (Clean site.environment history → ∃ after, site.loadNearest files = .ok after ∧
        after.environment.get? rootVariable = Ordered.lookup? rootVariable history) ∧
      (¬Clean site.environment history → site.loadNearest files = .error .nullByte) := by
  obtain ⟨history, unique, ofClean, ofNull⟩ := load_of_file isFile enabled
  refine ⟨history, unique, fun clean => ?_, fun notClean => ?_⟩
  · obtain ⟨environment, loaded, holds⟩ := ofClean clean
    refine ⟨{ site with environment }, ?_, ?_⟩
    · simp only [loadNearest, nearest, loaded]
    · rw [holds, absent, Option.none_or]
  · simp only [loadNearest, nearest, ofNull notClean]

/-! A file with all kinds of lines and values. -/

theorem isName_singleton {letter : Char} (starts : isNameStart letter = true) :
    IsName [letter] where
  start := ⟨letter, rfl, starts⟩
  rest := List.forall_mem_singleton.mpr (isNameRest_of_isNameStart starts)
  notExport := by
    rintro ⟨⟩

theorem isName_rootVariable : IsName rootVariable.toList where
  start := ⟨'T', rfl, rfl⟩
  rest := List.all_eq_true.mp rfl
  notExport := by decide

theorem bare_of_visible {value : List Char}
    (start : ∃ first ∈ value.head?, first ∉ ['#', '\'', '"'])
    (visible : ∀ character ∈ value, isBlank character = false) : Bare value where
  oneLine character member := Bool.eq_false_iff.mpr fun isEnd => by
    have noBlank := visible character member
    obtain rfl | rfl := eq_of_isLineEnd isEnd <;> cases noBlank
  start := by
    obtain ⟨first, isFirst, other⟩ := start
    exact ⟨first, isFirst, visible first (List.mem_of_mem_head? isFirst), other⟩
  trimmed := by
    obtain ⟨first, isFirst, _⟩ := start
    have nonempty : value ≠ [] := by
      rintro rfl
      cases isFirst
    exact ⟨_, List.getLast?_eq_some_getLast nonempty, visible _ (List.getLast_mem nonempty)⟩
  noComment before space after split := visible space (by simp [split])

def sampleLines : List Char :=
  "# roots".toList ++ (['\r', '\n'] ++
    ("export A = 'it\\'s' # one".toList ++ (['\n'] ++
      (" \t".toList ++ (['\n'] ++
        ("B=\"$\x7bA\x7d\\t$\x7bC:-x\x7d\"".toList ++ (['\r', '\n'] ++
          " TYPES_ROOT= $\x7bB\x7d#1 # two".toList)))))))

def sampleAssignments : List Assignment :=
  [("A", "it's"), ("B", "$\x7bA\x7d\t$\x7bC:-x\x7d"), ("TYPES_ROOT", "$\x7bB\x7d#1")]

def sampleHistory : History :=
  [("TYPES_ROOT", "it's\tx#1"), ("B", "it's\tx"), ("A", "it's")]

theorem quoted_plain {quote : Char} {escape? : Char → Option Char} (text : List Char)
    {content decoded : List Char}
    (plain : ∀ character ∈ text, character ≠ quote ∧ character ≠ '\\' ∧
      isLineEnd character = false)
    (quoted : Quoted quote escape? content decoded) :
    Quoted quote escape? (text ++ content) (text ++ decoded) := by
  induction text with
  | nil => exact quoted
  | cons character text induction =>
      obtain ⟨⟨noQuote, noBackslash, inLine⟩, others⟩ := List.forall_mem_cons.mp plain
      exact .plain noQuote noBackslash inLine (induction others)

theorem isFile_sampleLines : File Quoted sampleLines sampleAssignments := by
  have space : Gap [' '] := List.all_eq_true.mp rfl
  have behind : Tail " # one".toList :=
    .comment space (List.all_iff_forall_prop.mp rfl : OneLine " one".toList)
  have single : Quoted '\'' singleEscape? "it\\'s".toList "it's".toList :=
    quoted_plain "it".toList (List.all_iff_forall_prop.mp rfl)
      (.escape rfl (quoted_plain "s".toList (List.all_iff_forall_prop.mp rfl) .nil))
  have first : Line Quoted "export A = 'it\\'s' # one".toList (some ("A", "it's")) :=
    .assignment gap_nil (.yes rfl gap_nil) (isName_singleton (by decide : isNameStart 'A'))
      space space (.single single behind)
  have double : Quoted '"' doubleEscape? "$\x7bA\x7d\\t$\x7bC:-x\x7d".toList
      "$\x7bA\x7d\t$\x7bC:-x\x7d".toList :=
    quoted_plain "$\x7bA\x7d".toList (List.all_iff_forall_prop.mp rfl)
      (.escape rfl (quoted_plain "$\x7bC:-x\x7d".toList (List.all_iff_forall_prop.mp rfl) .nil))
  have second : Line Quoted "B=\"$\x7bA\x7d\\t$\x7bC:-x\x7d\"".toList
      (some ("B", "$\x7bA\x7d\t$\x7bC:-x\x7d")) :=
    .assignment gap_nil .no (isName_singleton (by decide : isNameStart 'B')) gap_nil gap_nil
      (.double double (.blank gap_nil))
  have bare : Bare "$\x7bB\x7d#1".toList :=
    bare_of_visible ⟨'$', rfl, by decide⟩ (List.all_iff_forall_prop.mp rfl)
  have behindBare : Tail " # two".toList :=
    .comment space (List.all_iff_forall_prop.mp rfl : OneLine " two".toList)
  have third : Line Quoted " TYPES_ROOT= $\x7bB\x7d#1 # two".toList
      (some ("TYPES_ROOT", "$\x7bB\x7d#1")) :=
    .assignment space .no isName_rootVariable gap_nil space (.bare bare behindBare (by decide))
  have comment : Line Quoted "# roots".toList none :=
    .comment gap_nil (List.all_iff_forall_prop.mp rfl : OneLine " roots".toList)
  have blank : Line Quoted " \t".toList none := .blank (List.all_eq_true.mp rfl)
  exact .line comment (.inr rfl) (.line first (.inl rfl) (.line blank (.inl rfl)
    (.line second (.inr rfl) (.last third))))

theorem evaluates_sample :
    Evaluates sampleHome.environment [] sampleAssignments sampleHistory := by
  have first := agree_put agree_nil "A" "it's"
  have second := agree_put first "B" "it's\tx"
  exact .cons ((expands_iff agree_nil).mpr rfl) (.cons ((expands_iff first).mpr rfl)
    (.cons ((expands_iff second).mpr rfl) .nil))

theorem clean_sample : Clean sampleHome.environment sampleHistory := by
  have nullFree : ∀ entry ∈ sampleHistory, '\x00' ∉ entry.2.toList :=
    List.all_iff_forall_prop.mp rfl
  have distinct : (Ordered.keys sampleHistory).Nodup := by decide
  intro name value _ held
  exact nullFree _ ((Ordered.mem_iff_lookup? distinct).mpr held)

theorem root_of_file_sample :
    File Quoted sampleLines sampleAssignments ∧
      Evaluates sampleHome.environment [] sampleAssignments sampleHistory ∧
      Clean sampleHome.environment sampleHistory ∧
      ∃ after, sampleHome.loadNearest [none, some sampleLines, some []] = .ok after ∧
        after.environment.get? rootVariable = some "it's\tx#1" := by
  have nearest : [none, some sampleLines, some []].findSome? id = some sampleLines := rfl
  obtain ⟨history, unique, ofClean, _⟩ :=
    @root_of_file sampleHome _ _ _ nearest isFile_sampleLines rfl rfl
  obtain rfl := (unique sampleHistory).mp evaluates_sample
  exact ⟨isFile_sampleLines, evaluates_sample, clean_sample, ofClean clean_sample⟩

/-! A looser notion of quoting, which does not hold, and a null byte. -/

/-- A quote within the value has a backslash right before it, whatever stands before that
one, and the closing quote has none. -/
def DirectlyQuoted : Quoting := fun quote escape? content decoded =>
  OneLine content ∧ content.getLast? ≠ some '\\' ∧
    (quote :: content).IsChain (fun left right => right = quote → left = '\\') ∧
    decodeEscapes escape? content = decoded

def sampleContent : List Char := ['a', '\\', '\\', '\\', '\\', '"', 'b']

def sampleBackslashes : List Char :=
  rootVariable.toList ++ '=' :: '"' :: (sampleContent ++ ['"', '\n'])

def sampleNull : List Char :=
  ['A', '=', 'x', '\x00', 'y'] ++ (['\n'] ++ (rootVariable.toList ++ ['=', 'y']))

/-- A quote behind two backslashes closes the value, and with what is left of it the line is
passed over. A null byte in any value stops the run, whatever the other lines are. -/
theorem backslashes_close_and_null_stops :
    (File DirectlyQuoted sampleBackslashes [(rootVariable, "a\\\\\"b")] ∧
      Evaluates sampleHome.environment [] [(rootVariable, "a\\\\\"b")]
        [(rootVariable, "a\\\\\"b")] ∧
      ∃ after, sampleHome.loadNearest [some sampleBackslashes] = .ok after ∧
        after.environment.get? rootVariable = none) ∧
    File DirectlyQuoted sampleNull [("A", "x\x00y"), (rootVariable, "y")] ∧
      sampleHome.loadNearest [some sampleNull] = .error .nullByte := by
  have quoted : DirectlyQuoted '"' doubleEscape? sampleContent ['a', '\\', '\\', '"', 'b'] :=
    ⟨List.all_iff_forall_prop.mp rfl, by decide, by decide, rfl⟩
  have line : Line DirectlyQuoted
      (rootVariable.toList ++ '=' :: '"' :: (sampleContent ++ ['"']))
      (some (rootVariable, "a\\\\\"b")) :=
    .assignment gap_nil .no isName_rootVariable gap_nil gap_nil (.double quoted (.blank gap_nil))
  have same : (EnvFile.resolve sampleHome.environment [] "a\\\\\"b").toList =
      ['a', '\\', '\\', '"', 'b'] := by cbv
  have withNull : Bare ['x', '\x00', 'y'] :=
    bare_of_visible ⟨'x', rfl, by decide⟩ (List.all_iff_forall_prop.mp rfl)
  have letter : Bare ['y'] :=
    bare_of_visible ⟨'y', rfl, by decide⟩ (List.forall_mem_singleton.mpr rfl)
  have null : Line DirectlyQuoted ['A', '=', 'x', '\x00', 'y'] (some ("A", "x\x00y")) :=
    .assignment gap_nil .no (isName_singleton (by decide : isNameStart 'A')) gap_nil gap_nil
      (.bare withNull (.blank gap_nil) (by decide))
  have other : Line DirectlyQuoted (rootVariable.toList ++ ['=', 'y'])
      (some (rootVariable, "y")) :=
    .assignment gap_nil .no isName_rootVariable gap_nil gap_nil
      (.bare letter (.blank gap_nil) (by decide))
  refine ⟨⟨.line line (.inl rfl) (.last (.blank gap_nil)), ?_, sampleHome, rfl, rfl⟩,
    .line null (.inl rfl) (.last other), rfl⟩
  exact .cons ((expands_iff agree_nil).mpr same) .nil

end PalletTypes.Site

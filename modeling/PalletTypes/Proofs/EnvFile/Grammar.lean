import PalletTypes.EnvFile.Binding

/-!
A grammar of the lines of environment files. A line is blank, a comment, or an assignment
whose value is bare or quoted; a quoted value ends on its line.
-/

namespace PalletTypes.EnvFile

def Gap (text : List Char) : Prop :=
  ∀ character ∈ text, isSpace character = true

def OneLine (text : List Char) : Prop :=
  ∀ character ∈ text, isLineEnd character = false

def isNameStart (character : Char) : Bool :=
  character.isAlpha || character == '_'

def isNameRest (character : Char) : Bool :=
  character.isAlphanum || character == '_'

def exportWord : List Char := ['e', 'x', 'p', 'o', 'r', 't']

structure IsName (name : List Char) : Prop where
  start : ∃ first ∈ name.head?, isNameStart first = true
  rest : ∀ character ∈ name, isNameRest character = true
  notExport : name ≠ exportWord

inductive Exported : List Char → Prop
  | no : Exported []
  | yes {space : Char} {gap : List Char} :
      isSpace space = true → Gap gap → Exported (exportWord ++ space :: gap)

/-- What may follow a value on its line. -/
inductive Tail : List Char → Prop
  | blank {gap : List Char} : Gap gap → Tail gap
  | comment {gap text : List Char} : Gap gap → OneLine text → Tail (gap ++ '#' :: text)

/-- A value without quotes, and without the white space around it. -/
structure Bare (value : List Char) : Prop where
  oneLine : OneLine value
  start : ∃ first ∈ value.head?, isBlank first = false ∧ first ∉ ['#', '\'', '"']
  trimmed : ∃ last ∈ value.getLast?, isBlank last = false
  noComment : ∀ before space after, value = before ++ space :: '#' :: after →
    isBlank space = false

/-- The content between two quotes and what it decodes to. A quote within it has a
backslash before it that is not itself taken along by another one. -/
inductive Quoted (quote : Char) (escape? : Char → Option Char) :
    List Char → List Char → Prop
  | nil : Quoted quote escape? [] []
  | plain {character : Char} {content decoded : List Char} :
      character ≠ quote → character ≠ '\\' → isLineEnd character = false →
        Quoted quote escape? content decoded →
          Quoted quote escape? (character :: content) (character :: decoded)
  | escape {letter character : Char} {content decoded : List Char} :
      escape? letter = some character → Quoted quote escape? content decoded →
        Quoted quote escape? ('\\' :: letter :: content) (character :: decoded)
  | kept {letter : Char} {content decoded : List Char} :
      escape? letter = none → isLineEnd letter = false →
        Quoted quote escape? content decoded →
          Quoted quote escape? ('\\' :: letter :: content) ('\\' :: letter :: decoded)

/-- A notion of what may stand between two quotes, and of what it decodes to. -/
abbrev Quoting := Char → (Char → Option Char) → List Char → List Char → Prop

/-- What follows an equals sign and the gap behind it, and the value that it spells. -/
inductive Written (quoting : Quoting) : List Char → List Char → Prop
  | empty : Written quoting [] []
  | bare {value tail : List Char} :
      Bare value → Tail tail → tail.head? ≠ some '#' → Written quoting (value ++ tail) value
  | single {content decoded tail : List Char} :
      quoting '\'' singleEscape? content decoded → Tail tail →
        Written quoting ('\'' :: (content ++ '\'' :: tail)) decoded
  | double {content decoded tail : List Char} :
      quoting '"' doubleEscape? content decoded → Tail tail →
        Written quoting ('"' :: (content ++ '"' :: tail)) decoded

/-- A name and the text that is assigned to it, before its references are replaced. -/
abbrev Assignment := String × String

inductive Line (quoting : Quoting) : List Char → Option Assignment → Prop
  | blank {gap : List Char} : Gap gap → Line quoting gap none
  | comment {gap text : List Char} :
      Gap gap → OneLine text → Line quoting (gap ++ '#' :: text) none
  | assignment {gap exported name before after written value : List Char} :
      Gap gap → Exported exported → IsName name → Gap before → Gap after →
        Written quoting written value →
          Line quoting (gap ++ (exported ++ (name ++ (before ++ '=' :: (after ++ written)))))
            (some (String.ofList name, String.ofList value))

/-- The lines of a file. Each ends with a line feed, with or without a carriage return
before it; the last one may end with the file. -/
inductive File (quoting : Quoting) : List Char → List Assignment → Prop
  | last {line : List Char} {spelled : Option Assignment} :
      Line quoting line spelled → File quoting line spelled.toList
  | line {line ending rest : List Char} {spelled : Option Assignment}
      {others : List Assignment} :
      Line quoting line spelled → ending = ['\n'] ∨ ending = ['\r', '\n'] →
        File quoting rest others →
          File quoting (line ++ (ending ++ rest)) (spelled.toList ++ others)

end PalletTypes.EnvFile

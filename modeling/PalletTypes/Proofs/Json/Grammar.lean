import Mathlib.Data.Bool.AllAny
import PalletTypes.Json.Reader

/-!
The grammar of JSON texts and what they denote, apart from any way of reading
them. A text is put together from the texts of its parts; nothing is said of
what may come after it.
-/

namespace PalletTypes.Json.Grammar

def Gap (text : List Char) : Prop :=
  ∀ character ∈ text, isSpace character = true

theorem gap_nil : Gap [] := fun _ member => nomatch member

structure Digits (text : List Char) : Prop where
  nonempty : text ≠ []
  all : ∀ character ∈ text, character.isDigit = true

inductive Sign : List Char → Bool → Prop
  | absent : Sign [] false
  | minus : Sign ['-'] true

inductive Whole : List Char → Prop
  | zero : Whole ['0']
  | digits {text : List Char} :
      Digits text → text.head? ≠ some '0' → Whole text

inductive Fraction : List Char → List Char → Prop
  | absent : Fraction [] []
  | present {digits : List Char} : Digits digits → Fraction ('.' :: digits) digits

inductive ExponentSign : List Char → Bool → Prop
  | absent : ExponentSign [] false
  | plus : ExponentSign ['+'] false
  | minus : ExponentSign ['-'] true

inductive Exponent : List Char → Option (Bool × List Char) → Prop
  | absent : Exponent [] none
  | present {mark : Char} {sign digits : List Char} {negative : Bool} :
      (mark = 'e' ∨ mark = 'E') → ExponentSign sign negative → Digits digits →
        Exponent (mark :: (sign ++ digits)) (some (negative, digits))

inductive Number : List Char → NumberLiteral → Prop
  | parts {sign whole fraction exponent digits : List Char} {negative : Bool}
      {power : Option (Bool × List Char)} :
      Sign sign negative → Whole whole → Fraction fraction digits →
        Exponent exponent power →
          Number (sign ++ (whole ++ (fraction ++ exponent)))
            ⟨negative, whole, digits, power⟩

/-- What a literal stands for: a whole number if it has neither fraction nor exponent,
which takes no more digits than the limit, and a double otherwise. -/
inductive NumberValue : NumberLiteral → Value → Prop
  | whole {negative : Bool} {digits : List Char} :
      digits.length ≤ NumberLiteral.digitLimit →
        NumberValue ⟨negative, digits, [], none⟩
          (.integer (if negative then -Decimal.ofDigits digits else Decimal.ofDigits digits))
  | double {literal : NumberLiteral} :
      literal.fraction ≠ [] ∨ literal.exponent ≠ none →
        NumberValue literal (.float (.ofDecimal literal.negative
          (literal.whole ++ literal.fraction)
          (literal.exponentValue - literal.fraction.length)))

theorem isDigit_of_mem_whole {whole : List Char} (isWhole : Whole whole) :
    ∀ digit ∈ whole, digit.isDigit := by
  cases isWhole with
  | zero => exact List.forall_mem_singleton.mpr rfl
  | digits isDigits => exact isDigits.all

theorem isDigit_of_mem_fraction {fraction digits : List Char}
    (isFraction : Fraction fraction digits) : ∀ digit ∈ digits, digit.isDigit := by
  cases isFraction with
  | absent => exact fun _ member => nomatch member
  | present isDigits => exact isDigits.all

theorem forall_mem_number {p : Char → Prop}
    (digit : ∀ character, character.isDigit = true → p character)
    (mark : ∀ character ∈ ['-', '+', '.', 'e', 'E'], p character) {text : List Char}
    {literal : NumberLiteral} (spelled : Number text literal) :
    ∀ character ∈ text, p character := by
  cases spelled with
  | parts isSign isWhole isFraction isExponent =>
      simp only [List.forall_mem_append]
      refine ⟨?_, fun character member => digit character (isDigit_of_mem_whole isWhole _ member),
        ?_, ?_⟩
      · cases isSign with
        | absent => exact fun _ member => nomatch member
        | minus => exact List.forall_mem_singleton.mpr (mark '-' (by decide))
      · cases isFraction with
        | absent => exact fun _ member => nomatch member
        | present digits =>
            refine List.forall_mem_cons.mpr ⟨mark '.' (by decide), fun character member => ?_⟩
            exact digit character (digits.all character member)
      · cases isExponent with
        | absent => exact fun _ member => nomatch member
        | present isMark isSign digits =>
            refine List.forall_mem_cons.mpr ⟨?_, List.forall_mem_append.mpr ⟨?_, ?_⟩⟩
            · rcases isMark with rfl | rfl
              · exact mark 'e' (by decide)
              · exact mark 'E' (by decide)
            · cases isSign with
              | absent => exact fun _ member => nomatch member
              | plus => exact List.forall_mem_singleton.mpr (mark '+' (by decide))
              | minus => exact List.forall_mem_singleton.mpr (mark '-' (by decide))
            · exact fun character member => digit character (digits.all character member)

/-! String literals. A part stands for a character, or by number for a 16-bit
unit; a high surrogate and the low one right after it make one character. -/

inductive Part where
  | character (character : Char)
  | unit (unit : Nat)

inductive PartText : List Char → Part → Prop
  | plain {character : Char} :
      0x20 ≤ character.toNat → character ≠ '"' → character ≠ '\\' →
        PartText [character] (.character character)
  | letter {letter character : Char} :
      StringLiteral.escaped? letter = some character →
        PartText ['\\', letter] (.character character)
  | number {first second third fourth : Char} {unit : Nat} :
      StringLiteral.unit? first second third fourth = some unit →
        PartText ['\\', 'u', first, second, third, fourth] (.unit unit)

inductive PartsText : List Char → List Part → Prop
  | nil : PartsText [] []
  | cons {text rest : List Char} {part : Part} {parts : List Part} :
      PartText text part → PartsText rest parts →
        PartsText (text ++ rest) (part :: parts)

def joinParts : List Part → Text
  | [] => []
  | .character character :: parts => .scalar character :: joinParts parts
  | .unit high :: .unit low :: parts =>
      if (0xD800 ≤ high ∧ high < 0xDC00) ∧ 0xDC00 ≤ low ∧ low < 0xE000 then
        .scalar (Char.ofNat (0x10000 + (high - 0xD800) * 0x400 + (low - 0xDC00))) ::
          joinParts parts
      else CodePoint.ofUnit high :: joinParts (.unit low :: parts)
  | .unit unit :: parts => CodePoint.ofUnit unit :: joinParts parts

inductive StringText : List Char → Text → Prop
  | quoted {text : List Char} {parts : List Part} :
      PartsText text parts → StringText ('"' :: (text ++ ['"'])) (joinParts parts)

/-! Values. What is nested comes from a relation for the parts one level down. -/

inductive Scalar : List Char → Value → Prop
  | null : Scalar ['n', 'u', 'l', 'l'] .null
  | true : Scalar ['t', 'r', 'u', 'e'] (.bool true)
  | false : Scalar ['f', 'a', 'l', 's', 'e'] (.bool false)
  | string {text : List Char} {value : Text} :
      StringText text value → Scalar text (.string value)
  | number {text : List Char} {literal : NumberLiteral} {value : Value} :
      Number text literal → NumberValue literal value → Scalar text value

variable {α : Type}

inductive Sequence (close : Char) (Element : List Char → α → Prop) :
    List Char → List α → Prop
  | last {text gap : List Char} {value : α} :
      Element text value → Gap gap →
        Sequence close Element (text ++ (gap ++ [close])) [value]
  | more {text before after rest : List Char} {value : α} {values : List α} :
      Element text value → Gap before → Gap after →
        Sequence close Element rest values →
          Sequence close Element (text ++ (before ++ ',' :: (after ++ rest)))
            (value :: values)

inductive Body (close : Char) (Element : List Char → α → Prop) :
    List Char → List α → Prop
  | empty {gap : List Char} : Gap gap → Body close Element (gap ++ [close]) []
  | filled {gap text : List Char} {values : List α} :
      Gap gap → Sequence close Element text values →
        Body close Element (gap ++ text) values

inductive Member (Item : List Char → Value → Prop) :
    List Char → Text × Value → Prop
  | pair {name before after text : List Char} {key : Text} {value : Value} :
      StringText name key → Gap before → Gap after → Item text value →
        Member Item (name ++ (before ++ ':' :: (after ++ text))) (key, value)

inductive Container (Item : List Char → Value → Prop) : List Char → Value → Prop
  | array {body : List Char} {items : List Value} :
      Body ']' Item body items → Container Item ('[' :: body) (.array items)
  | object {body : List Char} {pairs : List (Text × Value)} :
      Body '}' (Member Item) body pairs →
        Container Item ('{' :: body) (.object (Ordered.putAll [] pairs))

/-- The text denotes the value, with at most `depth` containers inside one
another. -/
def Denotes : (depth : Nat) → List Char → Value → Prop
  | 0 => Scalar
  | depth + 1 => fun text value =>
      Scalar text value ∨ Container (Denotes depth) text value

theorem denotes_of_scalar {depth : Nat} {text : List Char} {value : Value}
    (spelled : Scalar text value) : Denotes depth text value := by
  cases depth with
  | zero => exact spelled
  | succ depth => exact Or.inl spelled

/-- A whole text: one value with white space around it. -/
inductive Document (depth : Nat) : List Char → Value → Prop
  | spaced {before text after : List Char} {value : Value} :
      Gap before → Denotes depth text value → Gap after →
        Document depth (before ++ (text ++ after)) value

/-! What may come after a value without being taken for more of it. -/

def Delimited (rest : List Char) : Prop :=
  ∀ character, rest.head? = some character →
    isSpace character = true ∨ character = ',' ∨ character = ']' ∨ character = '}'

end PalletTypes.Json.Grammar

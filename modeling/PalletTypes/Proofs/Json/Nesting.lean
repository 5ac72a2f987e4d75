import PalletTypes.Proofs.Json.StringLiteral

/-!
How many containers a text opens inside one another, told from its characters alone.
The grammar derives a text at a depth if it derives it at any depth and the text opens no
more containers than that.
-/

namespace PalletTypes.Json

open Grammar

/-- Where a character stands: outside string literals, in one, or in one right after
a backslash. -/
inductive Place where
  | outside
  | inString
  | escaped

structure Scan where
  place : Place
  opened : Nat
  deepest : Nat

def Scan.step (scan : Scan) (character : Char) : Scan :=
  match scan.place with
  | .escaped => { scan with place := .inString }
  | .inString =>
      if character = '"' then { scan with place := .outside }
      else if character = '\\' then { scan with place := .escaped }
      else scan
  | .outside =>
      if character = '"' then { scan with place := .inString }
      else if character = '[' ∨ character = '{' then
        { scan with
          opened := scan.opened + 1
          deepest := max scan.deepest (scan.opened + 1) }
      else if character = ']' ∨ character = '}' then
        { scan with opened := scan.opened - 1 }
      else scan

/-- The most brackets that are open at once, those in string literals apart. -/
def nesting (text : List Char) : Nat :=
  (text.foldl Scan.step ⟨.outside, 0, 0⟩).deepest

/-- The text stands outside string literals, closes what it opens and nothing else,
and opens `level` containers inside one another. -/
def Nests (level : Nat) (text : List Char) : Prop :=
  ∀ opened deepest, opened ≤ deepest →
    text.foldl Scan.step ⟨.outside, opened, deepest⟩ =
      ⟨.outside, opened, max deepest (opened + level)⟩

theorem nesting_of_nests {level : Nat} {text : List Char} (nests : Nests level text) :
    nesting text = level := by
  rw [nesting, nests 0 0 (Nat.le_refl 0), Nat.zero_add, Nat.zero_max]

theorem Nests.append {first second : Nat} {left right : List Char}
    (nestsLeft : Nests first left) (nestsRight : Nests second right) :
    Nests (max first second) (left ++ right) := by
  intro opened deepest below
  rw [List.foldl_append, nestsLeft opened deepest below,
    nestsRight opened _ (Nat.le_trans below (Nat.le_max_left _ _))]
  congr 1
  omega

theorem Nests.bracketed {level : Nat} {text : List Char} (nests : Nests level text)
    {start close : Char} (opens : start = '[' ∨ start = '{')
    (closes : close = ']' ∨ close = '}') :
    Nests (level + 1) (start :: (text ++ [close])) := by
  intro opened deepest below
  have begins : Scan.step ⟨.outside, opened, deepest⟩ start =
      ⟨.outside, opened + 1, max deepest (opened + 1)⟩ := by
    rcases opens with rfl | rfl <;> rfl
  have ends (deepest : Nat) : Scan.step ⟨.outside, opened + 1, deepest⟩ close =
      ⟨.outside, opened, deepest⟩ := by
    rcases closes with rfl | rfl <;> rfl
  rw [List.foldl_cons, begins, List.foldl_append, nests _ _ (Nat.le_max_right _ _),
    List.foldl_cons, ends, List.foldl_nil]
  congr 1
  omega

/-! What opens nothing. -/

def Flat (character : Char) : Prop :=
  character ∉ ['"', '[', '{', ']', '}']

instance : DecidablePred Flat := fun character =>
  inferInstanceAs (Decidable (character ∉ ['"', '[', '{', ']', '}']))

theorem nests_flat {text : List Char} (all : ∀ character ∈ text, Flat character) :
    Nests 0 text := by
  induction text with
  | nil =>
      intro opened deepest below
      simp [below]
  | cons character text induction =>
      intro opened deepest below
      obtain ⟨flat, others⟩ := List.forall_mem_cons.mp all
      have stays : Scan.step ⟨.outside, opened, deepest⟩ character =
          ⟨.outside, opened, deepest⟩ := by
        simp only [Flat, List.mem_cons, List.not_mem_nil, or_false, not_or] at flat
        simp [Scan.step, flat]
      rw [List.foldl_cons, stays]
      exact induction others opened deepest below

theorem nests_gap {gap : List Char} (isGap : Gap gap) : Nests 0 gap := by
  apply nests_flat
  intro character member isFlat
  have space := isGap character member
  simp only [List.mem_cons, List.not_mem_nil, or_false] at isFlat
  rcases isFlat with rfl | rfl | rfl | rfl | rfl <;> cases space

theorem flat_of_isDigit {digit : Char} (isDigit : digit.isDigit = true) : Flat digit := by
  intro isFlat
  simp only [List.mem_cons, List.not_mem_nil, or_false] at isFlat
  rcases isFlat with rfl | rfl | rfl | rfl | rfl <;> cases isDigit

theorem flat_of_number {text : List Char} {literal : NumberLiteral}
    (spelled : Number text literal) : ∀ character ∈ text, Flat character :=
  forall_mem_number (fun _ => flat_of_isDigit) (List.all_iff_forall_prop.mp rfl) spelled

theorem scan_inString {text : List Char} (noQuote : '"' ∉ text) (noBackslash : '\\' ∉ text)
    (opened deepest : Nat) :
    text.foldl Scan.step ⟨.inString, opened, deepest⟩ = ⟨.inString, opened, deepest⟩ := by
  induction text with
  | nil => rfl
  | cons character text induction =>
      have stays : Scan.step ⟨.inString, opened, deepest⟩ character =
          ⟨.inString, opened, deepest⟩ := by
        simp [Scan.step, Ne.symm (List.ne_of_not_mem_cons noQuote),
          Ne.symm (List.ne_of_not_mem_cons noBackslash)]
      rw [List.foldl_cons, stays]
      exact induction (List.not_mem_of_not_mem_cons noQuote)
        (List.not_mem_of_not_mem_cons noBackslash)

theorem scan_part {text : List Char} {part : Part} (spelled : PartText text part)
    (opened deepest : Nat) :
    text.foldl Scan.step ⟨.inString, opened, deepest⟩ = ⟨.inString, opened, deepest⟩ := by
  cases spelled with
  | plain _ noQuote noBackslash =>
      exact scan_inString (fun member => noQuote (List.mem_singleton.mp member).symm)
        (fun member => noBackslash (List.mem_singleton.mp member).symm) opened deepest
  | letter => rfl
  | number named =>
      exact scan_inString (StringLiteral.not_mem_of_unit? named rfl)
        (StringLiteral.not_mem_of_unit? named rfl) opened deepest

theorem scan_parts {text : List Char} {parts : List Part} (spelled : PartsText text parts)
    (opened deepest : Nat) :
    text.foldl Scan.step ⟨.inString, opened, deepest⟩ = ⟨.inString, opened, deepest⟩ := by
  induction spelled with
  | nil => rfl
  | cons isPart _ induction => rw [List.foldl_append, scan_part isPart, induction]

theorem nests_string {text : List Char} {value : Text} (spelled : StringText text value) :
    Nests 0 text := by
  cases spelled with
  | quoted spelled =>
      intro opened deepest below
      have begins : Scan.step ⟨.outside, opened, deepest⟩ '"' =
          ⟨.inString, opened, deepest⟩ := rfl
      rw [List.foldl_cons, begins, List.foldl_append, scan_parts spelled, Nat.add_zero,
        Nat.max_eq_left below]
      rfl

theorem nests_scalar {text : List Char} {value : Value} (spelled : Scalar text value) :
    Nests 0 text := by
  cases spelled with
  | null => exact nests_flat (List.all_iff_forall_prop.mp rfl)
  | true => exact nests_flat (List.all_iff_forall_prop.mp rfl)
  | false => exact nests_flat (List.all_iff_forall_prop.mp rfl)
  | string spelled => exact nests_string spelled
  | number spelled => exact nests_flat (flat_of_number spelled)

/-! Values. Every derivation is one at the level that its text nests. -/

section Levels

variable {α : Type} {close : Char}

theorem sequence_imp {Element Other : List Char → α → Prop}
    (implies : ∀ text value, Element text value → Other text value) {text : List Char}
    {values : List α} (spelled : Sequence close Element text values) :
    Sequence close Other text values := by
  induction spelled with
  | last isElement isGap => exact .last (implies _ _ isElement) isGap
  | more isElement isBefore isAfter _ induction =>
      exact .more (implies _ _ isElement) isBefore isAfter induction

theorem body_imp {Element Other : List Char → α → Prop}
    (implies : ∀ text value, Element text value → Other text value) {text : List Char}
    {values : List α} (spelled : Body close Element text values) :
    Body close Other text values := by
  cases spelled with
  | empty isGap => exact .empty isGap
  | filled isGap sequence => exact .filled isGap (sequence_imp implies sequence)

def Grows (Element : Nat → List Char → α → Prop) : Prop :=
  ∀ {low high}, low ≤ high → ∀ text value, Element low text value → Element high text value

/-- What is derived at the depth is derived at the level that its text nests. -/
def Levels (Element : Nat → List Char → α → Prop) (depth : Nat) : Prop :=
  ∀ text value, Element depth text value →
    ∃ level ≤ depth, Nests level text ∧ Element level text value

variable {Element : Nat → List Char → α → Prop} {depth : Nat}

theorem sequence_level (grows : Grows Element) (levels : Levels Element depth)
    {text : List Char} {values : List α}
    (spelled : Sequence close (Element depth) text values) :
    ∃ level ≤ depth, ∃ inside, text = inside ++ [close] ∧ Nests level inside ∧
      Sequence close (Element level) text values := by
  induction spelled with
  | @last text gap value isElement isGap =>
      obtain ⟨level, below, nests, isElement⟩ := levels text value isElement
      refine ⟨level, below, text ++ gap, (List.append_assoc _ _ _).symm, ?_, .last isElement isGap⟩
      simpa using nests.append (nests_gap isGap)
  | @more text before after rest value values isElement isBefore isAfter _ induction =>
      obtain ⟨first, firstBelow, nests, isElement⟩ := levels text value isElement
      obtain ⟨second, secondBelow, inside, rfl, nestsInside, sequence⟩ := induction
      refine ⟨max first second, Nat.max_le.mpr ⟨firstBelow, secondBelow⟩,
        text ++ (before ++ ([','] ++ (after ++ inside))), by simp, ?_, ?_⟩
      · have comma : Nests 0 [','] := nests_flat (List.all_iff_forall_prop.mp rfl)
        simpa using nests.append ((nests_gap isBefore).append
          (comma.append ((nests_gap isAfter).append nestsInside)))
      · exact .more (grows (Nat.le_max_left _ _) _ _ isElement) isBefore isAfter
          (sequence_imp (grows (Nat.le_max_right _ _)) sequence)

theorem body_level (grows : Grows Element) (levels : Levels Element depth)
    {text : List Char} {values : List α}
    (spelled : Body close (Element depth) text values) :
    ∃ level ≤ depth, ∃ inside, text = inside ++ [close] ∧ Nests level inside ∧
      Body close (Element level) text values := by
  cases spelled with
  | @empty gap isGap => exact ⟨0, Nat.zero_le _, gap, rfl, nests_gap isGap, .empty isGap⟩
  | @filled gap text values isGap sequence =>
      obtain ⟨level, below, inside, rfl, nests, sequence⟩ :=
        sequence_level grows levels sequence
      refine ⟨level, below, gap ++ inside, (List.append_assoc _ _ _).symm, ?_,
        .filled isGap sequence⟩
      simpa using (nests_gap isGap).append nests

end Levels

theorem member_imp {Item Other : List Char → Value → Prop}
    (implies : ∀ text value, Item text value → Other text value) (text : List Char)
    (pair : Text × Value) (spelled : Member Item text pair) : Member Other text pair := by
  cases spelled with
  | pair isName isBefore isAfter isItem =>
      exact .pair isName isBefore isAfter (implies _ _ isItem)

theorem member_level {depth : Nat} (levels : Levels Denotes depth) :
    Levels (fun depth => Member (Denotes depth)) depth := by
  intro text pair spelled
  cases spelled with
  | @pair name before after text key value isName isBefore isAfter isItem =>
      obtain ⟨level, below, nests, isItem⟩ := levels text value isItem
      refine ⟨level, below, ?_, .pair isName isBefore isAfter isItem⟩
      have colon : Nests 0 [':'] := nests_flat (List.all_iff_forall_prop.mp rfl)
      simpa using (nests_string isName).append ((nests_gap isBefore).append
        (colon.append ((nests_gap isAfter).append nests)))

theorem container_imp {Item Other : List Char → Value → Prop}
    (implies : ∀ text value, Item text value → Other text value) {text : List Char}
    {value : Value} (spelled : Container Item text value) : Container Other text value := by
  cases spelled with
  | array body => exact .array (body_imp implies body)
  | object body => exact .object (body_imp (member_imp implies) body)

theorem denotes_grows : Grows Denotes := by
  intro low high below
  induction low generalizing high with
  | zero => exact fun text value spelled => denotes_of_scalar spelled
  | succ low induction =>
      cases high with
      | zero => exact absurd below (Nat.not_succ_le_zero low)
      | succ high =>
          intro text value spelled
          exact spelled.imp_right (container_imp (induction (Nat.le_of_succ_le_succ below)))

theorem denotes_level (depth : Nat) : Levels Denotes depth := by
  induction depth with
  | zero => exact fun text value spelled => ⟨0, Nat.le_refl 0, nests_scalar spelled, spelled⟩
  | succ depth levels =>
      intro text value spelled
      rcases spelled with isScalar | isContainer
      · exact ⟨0, Nat.zero_le _, nests_scalar isScalar, isScalar⟩
      cases isContainer with
      | array body =>
          obtain ⟨level, below, inside, rfl, nests, body⟩ := body_level denotes_grows levels body
          exact ⟨level + 1, Nat.succ_le_succ below,
            nests.bracketed (Or.inl rfl) (Or.inl rfl), Or.inr (.array body)⟩
      | object body =>
          obtain ⟨level, below, inside, rfl, nests, body⟩ := body_level
            (fun below => member_imp (denotes_grows below)) (member_level levels) body
          exact ⟨level + 1, Nat.succ_le_succ below,
            nests.bracketed (Or.inr rfl) (Or.inr rfl), Or.inr (.object body)⟩

theorem document_iff_nesting {depth : Nat} {text : List Char} {value : Value} :
    Document depth text value ↔
      (∃ depth, Document depth text value) ∧ nesting text ≤ depth := by
  have level {depth : Nat} (document : Document depth text value) :
      nesting text ≤ depth ∧ Document (nesting text) text value := by
    cases document with
    | spaced isBefore denoted isAfter =>
        obtain ⟨level, below, nests, denoted⟩ := denotes_level depth _ _ denoted
        have whole := (nests_gap isBefore).append (nests.append (nests_gap isAfter))
        rw [nesting_of_nests whole]
        simpa using ⟨below, .spaced isBefore denoted isAfter⟩
  constructor
  · exact fun document => ⟨⟨depth, document⟩, (level document).1⟩
  · rintro ⟨⟨other, document⟩, below⟩
    cases (level document).2 with
    | spaced isBefore denoted isAfter =>
        exact .spaced isBefore (denotes_grows below _ _ denoted) isAfter

end PalletTypes.Json

import PalletTypes.Proofs.Text.WellFormed

/-!
Starts of characters. The ranges that a lead byte asks for tell which bytes go on from it
to a character, and no character's form is a start of another's.
-/

namespace PalletTypes.Utf8

/-- The bytes are the form of a character or a start of one. -/
def Begins (bytes : Bytes) : Prop :=
  ∃ character, bytes <+: encodeChar character

/-- Each byte lies in its range; not all ranges need be used up. -/
inductive Fits : List Range → Bytes → Prop
  | nil {owed : List Range} : Fits owed []
  | cons {range : Range} {owed : List Range} {byte : UInt8} {bytes : Bytes} :
      range.contains byte → Fits owed bytes → Fits (range :: owed) (byte :: bytes)

theorem Fits.of_append {owed : List Range} {first second : Bytes}
    (fits : Fits owed (first ++ second)) : Fits owed first := by
  induction first generalizing owed with
  | nil => exact .nil
  | cons byte first induction =>
      cases fits with
      | cons contained rest => exact .cons contained (induction rest)

theorem Fits.of_isPrefix {owed : List Range} {part bytes : Bytes}
    (fits : Fits owed bytes) (isPrefix : part <+: bytes) : Fits owed part := by
  obtain ⟨later, rfl⟩ := isPrefix
  exact fits.of_append

theorem Completes.fits {number result : Nat} {owed : List Range} {bytes : Bytes}
    (completes : Completes number owed bytes result) :
    Fits owed bytes ∧ bytes.length = owed.length := by
  induction completes with
  | nil => exact ⟨.nil, rfl⟩
  | cons contained _ induction =>
      exact ⟨.cons contained induction.1, congrArg (· + 1) induction.2⟩

theorem exists_completes {owed : List Range} {bytes : Bytes} (fits : Fits owed bytes)
    (inhabited : ∀ range ∈ owed, ∃ byte, range.contains byte) (number : Nat) :
    ∃ more result, Completes number owed (bytes ++ more) result := by
  induction owed generalizing bytes number with
  | nil =>
      cases fits
      exact ⟨[], number, .nil⟩
  | cons range owed induction =>
      rw [List.forall_mem_cons] at inhabited
      cases fits with
      | nil =>
          obtain ⟨byte, contained⟩ := inhabited.1
          obtain ⟨more, result, completes⟩ := induction .nil inhabited.2 _
          exact ⟨byte :: more, result, .cons contained completes⟩
      | cons contained rest =>
          obtain ⟨more, result, completes⟩ := induction rest inhabited.2 _
          exact ⟨more, result, .cons contained completes⟩

theorem inhabited_of_lead {lead : UInt8} {number : Nat} {owed : List Range}
    (begins : lead? lead = some (number, owed)) :
    ∀ range ∈ owed, ∃ byte, range.contains byte := by
  suffices ordered : ∀ range ∈ owed, range.low ≤ range.high from
    fun range member => ⟨range.low, by simp [Range.contains, ordered range member]⟩
  revert begins
  fun_cases lead? lead with
  | case2 | case10 =>
      intro begins
      cases begins
  | _ =>
      intro begins
      obtain rfl := (Prod.mk.inj (Option.some.inj begins)).2
      decide

theorem encodeChar_eq_cons (character : Char) :
    ∃ lead number owed bytes result, encodeChar character = lead :: bytes ∧
      lead? lead = some (number, owed) ∧ Completes number owed bytes result := by
  have decoded : decodeFrom (between [] 0) (encode [character]) = .ok [character] :=
    decode_encode [character]
  have whole : encode [character] = encodeChar character := List.append_nil _
  rw [whole] at decoded
  cases form : encodeChar character with
  | nil => simp [form, decodeFrom] at decoded
  | cons lead bytes =>
      rw [form] at decoded
      simp only [decodeFrom] at decoded
      split at decoded
      · cases decoded
      · rename_i number owed begins
        refine ⟨lead, number, owed, bytes, ?_⟩
        cases owed with
        | nil =>
            obtain ⟨characters, read, rfl⟩ := encode_of_decodeFrom decoded
            obtain rfl := (List.cons.inj read).2
            exact ⟨number, rfl, begins, .nil⟩
        | cons range owed =>
            obtain ⟨taken, rest, result, start, rfl, completes, after⟩ :=
              decodeFrom_within (List.cons_ne_nil _ _) decoded
            obtain ⟨characters, read, rfl⟩ := encode_of_decodeFrom after
            obtain rfl := (List.cons.inj read).2
            refine ⟨result, rfl, begins, ?_⟩
            rw [encode, List.flatMap_nil, List.append_nil]
            exact completes

theorem begins_cons_iff {lead : UInt8} {bytes : Bytes} :
    Begins (lead :: bytes) ↔
      ∃ number owed, lead? lead = some (number, owed) ∧ Fits owed bytes := by
  constructor
  · rintro ⟨character, isPrefix⟩
    obtain ⟨first, number, owed, others, result, form, begins, completes⟩ :=
      encodeChar_eq_cons character
    rw [form, List.cons_prefix_cons] at isPrefix
    obtain ⟨rfl, isPrefix⟩ := isPrefix
    exact ⟨number, owed, begins, completes.fits.1.of_isPrefix isPrefix⟩
  · rintro ⟨number, owed, begins, fits⟩
    obtain ⟨more, result, completes⟩ :=
      exists_completes fits (inhabited_of_lead begins) number
    refine ⟨Char.ofNat result, ?_⟩
    rw [encodeChar_of_lead begins completes, List.cons_prefix_cons]
    exact ⟨rfl, List.prefix_append _ _⟩

theorem begins_nil : Begins [] :=
  ⟨default, List.nil_prefix⟩

theorem not_begins_of_no_lead {lead : UInt8} (none : lead? lead = none) (bytes : Bytes) :
    ¬Begins (lead :: bytes) := by
  intro begins
  obtain ⟨_, _, asks, _⟩ := begins_cons_iff.mp begins
  rw [none] at asks
  cases asks

section Lead

variable {lead : UInt8} {number : Nat} {owed : List Range} {bytes : Bytes}
  (asks : lead? lead = some (number, owed))
include asks

theorem fits_of_begins (begins : Begins (lead :: bytes)) : Fits owed bytes := by
  obtain ⟨_, _, same, fits⟩ := begins_cons_iff.mp begins
  rw [asks] at same
  cases same
  exact fits

theorem length_of_encodeChar {character : Char}
    (form : encodeChar character = lead :: bytes) : bytes.length = owed.length := by
  obtain ⟨first, other, ranges, others, result, sameForm, asksFirst, completes⟩ :=
    encodeChar_eq_cons character
  rw [form] at sameForm
  cases sameForm
  rw [asks] at asksFirst
  cases asksFirst
  exact completes.fits.2

end Lead

/-! No character's form is a start of another's, so what a text's form starts with tells
the text. -/

theorem encodeChar_append_inj {first second : Char} {after later : Bytes}
    (same : encodeChar first ++ after = encodeChar second ++ later) :
    first = second ∧ after = later := by
  obtain ⟨lead, number, owed, bytes, _, form, asks, completes⟩ := encodeChar_eq_cons first
  obtain ⟨other, _, _, others, _, otherForm, _, _⟩ := encodeChar_eq_cons second
  rw [form, otherForm, List.cons_append, List.cons_append, List.cons.injEq] at same
  obtain ⟨rfl, same⟩ := same
  have lengths : bytes.length = others.length :=
    completes.fits.2.trans (length_of_encodeChar asks otherForm).symm
  obtain ⟨rfl, rfl⟩ := List.append_inj same lengths
  have decoded := decode_encode [first]
  have sameForm : encode [first] = encode [second] := by
    simp only [encode, List.flatMap_cons, List.flatMap_nil, form, otherForm]
  rw [sameForm, decode_encode] at decoded
  exact ⟨(List.cons.inj (Except.ok.inj decoded)).1.symm, rfl⟩

theorem encode_cons (character : Char) (text : List Char) :
    encode (character :: text) = encodeChar character ++ encode text :=
  List.flatMap_cons

theorem exists_character_of_longer {text other : List Char} {rest later : Bytes}
    (same : encode text ++ rest = encode other ++ later)
    (longer : (encode text).length < (encode other).length) :
    ∃ character, encodeChar character <+: rest := by
  induction text generalizing other with
  | nil =>
      cases other with
      | nil => cases longer
      | cons character other =>
          refine ⟨character, encode other ++ later, ?_⟩
          rw [← List.append_assoc]
          exact same.symm
  | cons first text induction =>
      cases other with
      | nil => cases longer
      | cons second other =>
          simp only [encode_cons, List.append_assoc, List.length_append] at same longer
          obtain ⟨rfl, sameRest⟩ := encodeChar_append_inj same
          exact induction sameRest (by omega)

end PalletTypes.Utf8

import PalletTypes.Proofs.Text.CharacterStart

/-!
Which bytes are refused as UTF-8, where and why. Refused is what stands after the longest
start that is the form of a text: as much of it as begins a character, or else one byte.
-/

namespace PalletTypes.Utf8

/-- Bytes that start with no character's form, the part of them that is refused, and
why. -/
inductive Stuck : Bytes → Bytes → Reason → Prop
  | startByte {lead : UInt8} {later : Bytes} :
      lead? lead = none → Stuck (lead :: later) [lead] .startByte
  | endOfData {lead : UInt8} {number : Nat} {owed : List Range} {taken : Bytes} :
      lead? lead = some (number, owed) → Fits owed taken → taken.length < owed.length →
        Stuck (lead :: taken) (lead :: taken) .endOfData
  | continuationByte {lead bad : UInt8} {number : Nat} {owed : List Range}
      {taken later : Bytes} :
      lead? lead = some (number, owed) → Fits owed taken → taken.length < owed.length →
        ¬Fits owed (taken ++ [bad]) →
          Stuck (lead :: (taken ++ bad :: later)) (lead :: taken) .continuationByte

theorem stuck_within {done : List Char} {start number : Nat} {read bytes : Bytes}
    {owed : List Range} {fault : Fault} (begun : owed ≠ [])
    (failed : decodeFrom ⟨done, start, read, number, owed⟩ bytes = .error fault) :
    (Fits owed bytes ∧ bytes.length < owed.length ∧
        fault = ⟨start, read ++ bytes, .endOfData⟩) ∨
      (∃ taken bad later, bytes = taken ++ bad :: later ∧ Fits owed taken ∧
        taken.length < owed.length ∧ ¬Fits owed (taken ++ [bad]) ∧
          fault = ⟨start, read ++ taken, .continuationByte⟩) ∨
      ∃ taken rest result, bytes = taken ++ rest ∧ Completes number owed taken result ∧
        decodeFrom (between (Char.ofNat result :: done)
          (start + read.length + taken.length)) rest = .error fault := by
  induction owed generalizing number read bytes with
  | nil => exact absurd rfl begun
  | cons range owed induction =>
      cases bytes with
      | nil =>
          cases failed
          exact Or.inl ⟨.nil, Nat.succ_pos _, by rw [List.append_nil]⟩
      | cons byte bytes =>
          simp only [decodeFrom] at failed
          split at failed
          · rename_i isNext
            cases owed with
            | nil => exact Or.inr (Or.inr ⟨[byte], bytes, _, rfl, .cons isNext .nil, failed⟩)
            | cons next owed =>
                rcases induction (List.cons_ne_nil _ _) failed with
                  ⟨fits, short, rfl⟩ | ⟨taken, bad, later, rfl, fits, short, stops, rfl⟩ |
                    ⟨taken, rest, result, rfl, completes, after⟩
                · refine Or.inl ⟨.cons isNext fits, Nat.succ_lt_succ short, ?_⟩
                  rw [List.append_assoc, List.singleton_append]
                · refine Or.inr (Or.inl ⟨byte :: taken, bad, later, rfl, .cons isNext fits,
                    Nat.succ_lt_succ short, ?_, ?_⟩)
                  · intro fitsMore
                    cases fitsMore with
                    | cons _ rest => exact stops rest
                  · rw [List.append_assoc, List.singleton_append]
                · refine Or.inr (Or.inr ⟨byte :: taken, rest, result, rfl,
                    .cons isNext completes, ?_⟩)
                  rw [← after]
                  congr 2
                  simp only [List.length_append, List.length_cons, List.length_nil]
                  omega
          · rename_i notNext
            cases failed
            refine Or.inr (Or.inl ⟨[], byte, bytes, rfl, .nil, Nat.succ_pos _, ?_, ?_⟩)
            · intro fits
              cases fits with
              | cons isNext _ => exact notNext isNext
            · rw [List.append_nil]

theorem stuck_of_decodeFrom {done : List Char} {start : Nat} {bytes : Bytes}
    {fault : Fault} (failed : decodeFrom (between done start) bytes = .error fault) :
    ∃ text rest, bytes = encode text ++ rest ∧
      fault.start = start + (encode text).length ∧ Stuck rest fault.bytes fault.reason := by
  cases bytes with
  | nil => cases failed
  | cons lead bytes =>
      simp only [decodeFrom] at failed
      split at failed
      · rename_i noLead
        cases failed
        exact ⟨[], lead :: bytes, rfl, rfl, .startByte noLead⟩
      · rename_i number owed asks
        -- After a whole character the rest is refused as the whole is.
        have goOn {taken rest : Bytes} {result place : Nat}
            (shorter : rest.length < (lead :: bytes).length) (split : bytes = taken ++ rest)
            (completes : Completes number owed taken result)
            (isPlace : place = start + (taken.length + 1))
            (after : decodeFrom (between (Char.ofNat result :: done) place) rest =
              .error fault) :
            ∃ text rest, lead :: bytes = encode text ++ rest ∧
              fault.start = start + (encode text).length ∧
                Stuck rest fault.bytes fault.reason := by
          obtain ⟨text, left, rfl, isStart, stuck⟩ := stuck_of_decodeFrom after
          have form := encodeChar_of_lead asks completes
          refine ⟨Char.ofNat result :: text, left, ?_, ?_, stuck⟩
          · rw [split, encode_cons, form, List.append_assoc, List.cons_append]
          · rw [isStart, isPlace, encode_cons, form, List.length_append, List.length_cons]
            omega
        cases owed with
        | nil => exact goOn (Nat.lt_succ_self _) rfl .nil rfl failed
        | cons range owed =>
            rcases stuck_within (List.cons_ne_nil _ _) failed with
              ⟨fits, short, rfl⟩ | ⟨taken, bad, later, rfl, fits, short, stops, rfl⟩ |
                ⟨taken, rest, result, rfl, completes, after⟩
            · exact ⟨[], lead :: bytes, rfl, rfl, .endOfData asks fits short⟩
            · exact ⟨[], _, rfl, rfl, .continuationByte asks fits short stops⟩
            · refine goOn ?_ rfl completes ?_ after
              · simp only [List.length_cons, List.length_append]
                omega
              · simp only [List.nil_append, List.length_singleton]
                omega
termination_by bytes.length

/-- A start of the bytes that begins a character, and no longer one does. -/
structure LongestStart (bytes part : Bytes) : Prop where
  isPrefix : part <+: bytes
  begins : Begins part
  longest : ∀ other, other <+: bytes → Begins other → other.length ≤ part.length

/-- The part of the bytes that is refused: the longest start that begins a character, or
one byte if only the empty start does. -/
def BadPart (bytes part : Bytes) : Prop :=
  (part ≠ [] ∧ LongestStart bytes part) ∨
    (LongestStart bytes [] ∧ part <+: bytes ∧ part.length = 1)

/-- The bytes are the start of a character's form and not all of it. -/
def CutShort (bytes : Bytes) : Prop :=
  ∃ character, bytes <+: encodeChar character ∧ bytes ≠ encodeChar character

/-- The first of the bytes begins no character. -/
def BeginsNone (bytes : Bytes) : Prop :=
  ∃ lead later, bytes = lead :: later ∧ ¬Begins [lead]

/-- Where the content ceases to be the form of a text: the longest such text, and what is
left of the content, from which a part is refused. -/
structure Refuses (content : Bytes) (fault : Fault) (text : List Char) (rest : Bytes) :
    Prop where
  split : content = encode text ++ rest
  longest : ∀ other later, content = encode other ++ later →
    (encode other).length ≤ (encode text).length
  start : fault.start = (encode text).length
  bytes : BadPart rest fault.bytes
  endOfData : fault.reason = .endOfData ↔ CutShort rest
  startByte : fault.reason = .startByte ↔ BeginsNone rest
  continuationByte : fault.reason = .continuationByte ↔ ¬CutShort rest ∧ ¬BeginsNone rest

theorem length_le_of_stops {owed : List Range} {taken later other : Bytes} {bad : UInt8}
    (stops : ¬Fits owed (taken ++ [bad])) (isPrefix : other <+: taken ++ bad :: later)
    (fits : Fits owed other) : other.length ≤ taken.length := by
  refine Nat.le_of_not_lt fun longer => stops (fits.of_isPrefix ?_)
  refine List.prefix_of_prefix_length_le ?_ isPrefix ?_
  · rw [List.prefix_append_right_inj, List.cons_prefix_cons]
    exact ⟨rfl, List.nil_prefix⟩
  · rw [List.length_append, List.length_singleton]
    exact longer

namespace Stuck

variable {bytes part : Bytes} {reason : Reason}

theorem badPart (stuck : Stuck bytes part reason) : BadPart bytes part := by
  cases stuck with
  | @startByte lead later none =>
      refine Or.inr ⟨⟨List.nil_prefix, begins_nil, fun other isPrefix begins => ?_⟩,
        ⟨later, rfl⟩, rfl⟩
      cases other with
      | nil => exact Nat.le_refl 0
      | cons first other =>
          obtain ⟨rfl, _⟩ := List.cons_prefix_cons.mp isPrefix
          exact absurd begins (not_begins_of_no_lead none other)
  | endOfData asks fits short =>
      exact Or.inl ⟨List.cons_ne_nil _ _, List.prefix_refl _,
        begins_cons_iff.mpr ⟨_, _, asks, fits⟩, fun _ isPrefix _ => isPrefix.length_le⟩
  | @continuationByte lead bad number owed taken later asks fits short stops =>
      refine Or.inl ⟨List.cons_ne_nil _ _, ⟨bad :: later, rfl⟩,
        begins_cons_iff.mpr ⟨_, _, asks, fits⟩, fun other isPrefix begins => ?_⟩
      cases other with
      | nil => exact Nat.zero_le _
      | cons first other =>
          obtain ⟨rfl, isTail⟩ := List.cons_prefix_cons.mp isPrefix
          exact Nat.succ_le_succ
            (length_le_of_stops stops isTail (fits_of_begins asks begins))

theorem no_character (stuck : Stuck bytes part reason) (character : Char) :
    ¬encodeChar character <+: bytes := by
  intro isPrefix
  have begins : Begins (encodeChar character) := ⟨character, List.prefix_refl _⟩
  obtain ⟨first, _, _, others, _, form, _, _⟩ := encodeChar_eq_cons character
  rw [form] at isPrefix begins
  cases stuck with
  | startByte none =>
      obtain ⟨rfl, _⟩ := List.cons_prefix_cons.mp isPrefix
      exact not_begins_of_no_lead none others begins
  | endOfData asks fits short =>
      obtain ⟨rfl, isTail⟩ := List.cons_prefix_cons.mp isPrefix
      have whole := length_of_encodeChar asks form
      have bound := isTail.length_le
      omega
  | continuationByte asks fits short stops =>
      obtain ⟨rfl, isTail⟩ := List.cons_prefix_cons.mp isPrefix
      have whole := length_of_encodeChar asks form
      have bound := length_le_of_stops stops isTail (fits_of_begins asks begins)
      omega

theorem endOfData_iff (stuck : Stuck bytes part reason) :
    reason = .endOfData ↔ CutShort bytes := by
  cases stuck with
  | startByte none =>
      refine iff_of_false (by simp) ?_
      rintro ⟨character, isPrefix, _⟩
      exact not_begins_of_no_lead none _ ⟨character, isPrefix⟩
  | endOfData asks fits short =>
      refine iff_of_true rfl ?_
      obtain ⟨character, isPrefix⟩ := begins_cons_iff.mpr ⟨_, _, asks, fits⟩
      refine ⟨character, isPrefix, fun whole => ?_⟩
      have length := length_of_encodeChar asks whole.symm
      omega
  | continuationByte asks fits short stops =>
      refine iff_of_false (by simp) ?_
      rintro ⟨character, isPrefix, _⟩
      have fitsAll := fits_of_begins asks ⟨character, isPrefix⟩
      rw [List.append_cons] at fitsAll
      exact stops fitsAll.of_append

theorem startByte_iff (stuck : Stuck bytes part reason) :
    reason = .startByte ↔ BeginsNone bytes := by
  have begun {lead : UInt8} {number : Nat} {owed : List Range} {later : Bytes}
      (asks : lead? lead = some (number, owed)) : ¬BeginsNone (lead :: later) := by
    rintro ⟨_, _, same, none⟩
    cases same
    exact none (begins_cons_iff.mpr ⟨_, _, asks, .nil⟩)
  cases stuck with
  | startByte none => exact iff_of_true rfl ⟨_, _, rfl, not_begins_of_no_lead none []⟩
  | endOfData asks => exact iff_of_false (by simp) (begun asks)
  | continuationByte asks => exact iff_of_false (by simp) (begun asks)

end Stuck

theorem refuses_of_decode {content : Bytes} {fault : Fault}
    (failed : decode content = .error fault) :
    ∃ text rest, Refuses content fault text rest := by
  have fromStart : decodeFrom (between [] 0) content = .error fault := failed
  obtain ⟨text, rest, rfl, start, stuck⟩ := stuck_of_decodeFrom fromStart
  refine ⟨text, rest, rfl, fun other later same => ?_, ?_, stuck.badPart,
    stuck.endOfData_iff, stuck.startByte_iff, ?_⟩
  · refine Nat.le_of_not_lt fun longer => ?_
    obtain ⟨character, isPrefix⟩ := exists_character_of_longer same longer
    exact stuck.no_character character isPrefix
  · rw [start, Nat.zero_add]
  · rw [← stuck.endOfData_iff, ← stuck.startByte_iff]
    cases fault.reason <;> decide

/-! Where and why is determined. -/

theorem BadPart.isPrefix {bytes part : Bytes} (bad : BadPart bytes part) : part <+: bytes :=
  bad.elim (fun longest => longest.2.isPrefix) fun single => single.2.1

theorem BadPart.length_le {bytes part other : Bytes} (bad : BadPart bytes part)
    (badOther : BadPart bytes other) : part.length ≤ other.length := by
  rcases bad with ⟨nonempty, longest⟩ | ⟨none, _, single⟩
  · rcases badOther with ⟨_, longestOther⟩ | ⟨none, _⟩
    · exact longestOther.longest part longest.isPrefix longest.begins
    · have short := none.longest part longest.isPrefix longest.begins
      exact absurd (List.length_eq_zero_iff.mp (Nat.le_zero.mp short)) nonempty
  · rcases badOther with ⟨nonempty, _⟩ | ⟨_, _, singleOther⟩
    · rw [single]
      exact List.length_pos_iff.mpr nonempty
    · exact Nat.le_of_eq (single.trans singleOther.symm)

theorem BadPart.unique {bytes part other : Bytes} (bad : BadPart bytes part)
    (badOther : BadPart bytes other) : part = other := by
  have lengths := Nat.le_antisymm (bad.length_le badOther) (badOther.length_le bad)
  exact (List.prefix_of_prefix_length_le bad.isPrefix badOther.isPrefix
    (Nat.le_of_eq lengths)).eq_of_length lengths

theorem Refuses.unique {content : Bytes} {fault other : Fault} {text otherText : List Char}
    {rest otherRest : Bytes} (refuses : Refuses content fault text rest)
    (refusesOther : Refuses content other otherText otherRest) : fault = other := by
  have lengths := Nat.le_antisymm
    (refusesOther.longest text rest refuses.split)
    (refuses.longest otherText otherRest refusesOther.split)
  obtain ⟨_, rfl⟩ :=
    List.append_inj (refuses.split.symm.trans refusesOther.split) lengths
  have starts : fault.start = other.start := by
    rw [refuses.start, refusesOther.start, lengths]
  have parts := refuses.bytes.unique refusesOther.bytes
  have ends := refuses.endOfData.trans refusesOther.endOfData.symm
  have none := refuses.startByte.trans refusesOther.startByte.symm
  obtain ⟨start, bytes, reason⟩ := fault
  obtain ⟨otherStart, otherBytes, otherReason⟩ := other
  cases starts
  cases parts
  cases reason <;> cases otherReason <;> simp at ends none ⊢

theorem Refuses.rest_ne_nil {content : Bytes} {fault : Fault} {text : List Char}
    {rest : Bytes} (refuses : Refuses content fault text rest) : rest ≠ [] := by
  rintro rfl
  have bad := refuses.bytes
  have empty : fault.bytes = [] := List.prefix_nil.mp bad.isPrefix
  rcases bad with ⟨nonempty, _⟩ | ⟨_, _, single⟩
  · exact nonempty empty
  · rw [empty] at single
    cases single

theorem decode_eq_error_iff {content : Bytes} {fault : Fault} :
    decode content = .error fault ↔ ∃ text rest, Refuses content fault text rest := by
  constructor
  · exact refuses_of_decode
  · rintro ⟨text, rest, refuses⟩
    cases decoded : decode content with
    | ok characters =>
        obtain rfl := decode_eq_ok_iff.mp decoded
        have whole := refuses.longest characters [] (List.append_nil _).symm
        have split := congrArg List.length refuses.split
        rw [List.length_append] at split
        exact absurd (List.length_eq_zero_iff.mp (by omega)) refuses.rest_ne_nil
    | error other =>
        obtain ⟨_, _, refusesOther⟩ := refuses_of_decode decoded
        rw [refusesOther.unique refuses]

end PalletTypes.Utf8

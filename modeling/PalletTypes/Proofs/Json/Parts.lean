import PalletTypes.Json.Reader

/-!
The loops of the reader as one relation: parts with commas between them, up to a
closing mark or to the first fault. What a step comes to is told without the bound on
what it leaves.
-/

namespace PalletTypes.Json

variable {α : Type}

abbrev PartReader (α : Type) := List Char → Except Fault (α × List Char)

def unbounded {bound : Nat} (result : Except Fault (Taken α bound)) :
    Except Fault (α × List Char) :=
  result.map fun taken => (taken.value, taken.rest)

/-- The parts are read from the text, or the first fault is met. -/
inductive ReadsParts (close : Char) (readPart : PartReader α) :
    List Char → Except Fault (List α × List Char) → Prop
  | failed {text : List Char} {fault : Fault} :
      readPart text = .error fault → ReadsParts close readPart text (.error fault)
  | more {text after rest : List Char} {part : α}
      {others : Except Fault (List α × List Char)} :
      readPart text = .ok (part, after) → skipSpace after = ',' :: rest →
        ReadsParts close readPart (skipSpace rest) others →
          ReadsParts close readPart text
            (others.map fun (parts, final) => (part :: parts, final))
  | closed {text after rest : List Char} {part : α} :
      readPart text = .ok (part, after) → skipSpace after = close :: rest →
        ReadsParts close readPart text (.ok ([part], rest))
  | unseparated {text after : List Char} {part : α} :
      readPart text = .ok (part, after) → (∀ rest, skipSpace after ≠ ',' :: rest) →
        (∀ rest, skipSpace after ≠ close :: rest) →
          ReadsParts close readPart text (.error (.malformed .comma (skipSpace after)))

theorem ReadsParts.unique {close : Char} (noComma : ',' ≠ close) {readPart : PartReader α}
    {text : List Char} {first second : Except Fault (List α × List Char)}
    (reads : ReadsParts close readPart text first)
    (readsToo : ReadsParts close readPart text second) : first = second := by
  induction reads generalizing second with
  | failed found => cases readsToo <;> simp_all
  | more found separated _ induction =>
      cases readsToo with
      | more foundToo separatedToo othersToo =>
          rw [found] at foundToo
          cases foundToo
          rw [separated] at separatedToo
          cases separatedToo
          rw [induction othersToo]
      | _ => simp_all
  | closed found closed => cases readsToo <;> simp_all
  | unseparated found => cases readsToo <;> simp_all

/-- What stands in a container is read: nothing but the closing mark, or parts. -/
inductive ReadsBody (close : Char) (readPart : PartReader α) :
    List Char → Except Fault (List α × List Char) → Prop
  | empty {text rest : List Char} :
      skipSpace text = close :: rest → ReadsBody close readPart text (.ok ([], rest))
  | filled {text : List Char} {parts : Except Fault (List α × List Char)} :
      (∀ rest, skipSpace text ≠ close :: rest) →
        ReadsParts close readPart (skipSpace text) parts →
          ReadsBody close readPart text parts

theorem ReadsBody.unique {close : Char} (noComma : ',' ≠ close) {readPart : PartReader α}
    {text : List Char} {first second : Except Fault (List α × List Char)}
    (reads : ReadsBody close readPart text first)
    (readsToo : ReadsBody close readPart text second) : first = second := by
  cases reads with
  | empty closed => cases readsToo <;> simp_all
  | filled _ parts =>
      cases readsToo with
      | empty closed => simp_all
      | filled _ partsToo => exact parts.unique noComma partsToo

def readMember (readItem : PartReader Value) : PartReader (Text × Value)
  | '"' :: afterQuote =>
      match StringLiteral.read ('"' :: afterQuote) [] afterQuote with
      | .error fault => .error fault
      | .ok (key, afterName) =>
          match skipSpace afterName with
          | ':' :: afterColon =>
              (readItem (skipSpace afterColon)).map fun (value, rest) => ((key, value), rest)
          | rest => .error (.malformed .colon rest)
  | text => .error (.malformed .name text)

section Loops

variable (readItem : ItemReader)

theorem readItems_readsParts {bound : Nat} (done : List Value) {text : List Char}
    (within : text.length ≤ bound) :
    ∃ parts, ReadsParts ']' (fun text => unbounded (readItem text)) text parts ∧
      unbounded (readItems readItem bound done text within) =
        parts.map fun (items, rest) => (done.reverse ++ items, rest) := by
  fun_induction readItems readItem bound done text within with
  | case1 done text within fault failed =>
      exact ⟨_, .failed (congrArg unbounded failed), rfl⟩
  | case2 done text within item found rest separator _ _ _ induction =>
      obtain ⟨parts, reads, same⟩ := induction
      refine ⟨_, .more (congrArg unbounded found) separator reads, ?_⟩
      rw [same]
      cases parts <;> simp [Except.map]
  | case3 done text within item found rest separator =>
      refine ⟨_, .closed (congrArg unbounded found) separator, ?_⟩
      simp [unbounded, Except.map]
  | case4 done text within item found noComma noBracket =>
      exact ⟨_, .unseparated (congrArg unbounded found) noComma noBracket, rfl⟩

theorem readMembers_readsParts {bound : Nat} (done : Members) {text : List Char}
    (within : text.length ≤ bound) :
    ∃ parts, ReadsParts '}' (readMember fun text => unbounded (readItem text)) text parts ∧
      unbounded (readMembers readItem bound done text within) =
        parts.map fun (pairs, rest) => (Ordered.putAll done pairs, rest) := by
  induction done, text using readMembers.induct bound with
  | case1 done afterQuote induction =>
      rw [readMembers]
      split
      · rename_i fault failed
        have member : readMember (fun text => unbounded (readItem text))
            ('"' :: afterQuote) = .error fault := by
          simp only [readMember, failed]
        exact ⟨_, .failed member, rfl⟩
      rename_i key afterName name
      split
      case h_2 =>
        rename_i noColon
        have member : readMember (fun text => unbounded (readItem text))
            ('"' :: afterQuote) = .error (.malformed .colon (skipSpace afterName)) := by
          simp only [readMember, name]
        exact ⟨_, .failed member, rfl⟩
      rename_i afterColon colon
      split
      · rename_i fault failed
        have member : readMember (fun text => unbounded (readItem text))
            ('"' :: afterQuote) = .error fault := by
          simp only [readMember, name, colon, failed]
          rfl
        exact ⟨_, .failed member, rfl⟩
      rename_i item found
      have member : readMember (fun text => unbounded (readItem text)) ('"' :: afterQuote) =
          .ok ((key, item.value), item.rest) := by
        simp only [readMember, name, colon, found]
        rfl
      split
      · rename_i rest separator
        obtain ⟨parts, reads, same⟩ :=
          induction key afterName name afterColon colon item rest separator _
        refine ⟨_, .more member separator reads, ?_⟩
        rw [same]
        cases parts <;> simp [Except.map, Ordered.putAll]
      · rename_i rest separator
        exact ⟨_, .closed member separator, rfl⟩
      · rename_i noComma noBrace
        exact ⟨_, .unseparated member noComma noBrace, rfl⟩
  | case2 done text other =>
      rw [readMembers]
      · have member : readMember (fun text => unbounded (readItem text)) text =
            .error (.malformed .name text) := by
          rw [readMember]
          exact other
        exact ⟨_, .failed member, rfl⟩
      · exact other

theorem readArray_readsBody (text : List Char) :
    ReadsBody ']' (fun text => unbounded (readItem text)) text
      (unbounded (readArray readItem text)) := by
  fun_cases readArray readItem text with
  | case1 rest closed => exact .empty closed
  | case2 filled =>
      have within := Nat.le_succ_of_le (skipSpace_length_le text)
      obtain ⟨parts, reads, same⟩ := readItems_readsParts readItem [] within
      have unchanged : unbounded (readItems readItem _ [] _ within) = parts := by
        rw [same]
        cases parts <;> rfl
      exact .filled filled (unchanged ▸ reads)

theorem readObject_readsBody (text : List Char) :
    ∃ parts, ReadsBody '}' (readMember fun text => unbounded (readItem text)) text parts ∧
      unbounded (readObject readItem text) =
        parts.map fun (pairs, rest) => (Ordered.putAll [] pairs, rest) := by
  fun_cases readObject readItem text with
  | case1 rest closed => exact ⟨_, .empty closed, rfl⟩
  | case2 filled =>
      have within := Nat.le_succ_of_le (skipSpace_length_le text)
      obtain ⟨parts, reads, same⟩ := readMembers_readsParts readItem [] within
      exact ⟨parts, .filled filled reads, same⟩

end Loops

/-- How a value is read is decided by what its text begins with. -/
inductive ValueStart : List Char → Prop
  | array (rest : List Char) : ValueStart ('[' :: rest)
  | object (rest : List Char) : ValueStart ('{' :: rest)
  | scalar {text : List Char} :
      (∀ rest, text ≠ '[' :: rest) → (∀ rest, text ≠ '{' :: rest) → ValueStart text

theorem valueStart (text : List Char) : ValueStart text := by
  by_cases isArray : ∃ rest, text = '[' :: rest
  · obtain ⟨rest, rfl⟩ := isArray
    exact .array rest
  · by_cases isObject : ∃ rest, text = '{' :: rest
    · obtain ⟨rest, rfl⟩ := isObject
      exact .object rest
    · exact .scalar (not_exists.mp isArray) (not_exists.mp isObject)

theorem unbounded_readValue_array (dialect : Dialect) (depth : Nat) (rest : List Char) :
    unbounded (readValue dialect (depth + 1) ('[' :: rest)) =
      (unbounded (readArray (readValue dialect depth) rest)).map
        fun (items, after) => (.array items, after) := by
  rw [readValue]
  cases readArray (readValue dialect depth) rest <;> rfl

theorem unbounded_readValue_object (dialect : Dialect) (depth : Nat) (rest : List Char) :
    unbounded (readValue dialect (depth + 1) ('{' :: rest)) =
      (unbounded (readObject (readValue dialect depth) rest)).map
        fun (members, after) => (.object members, after) := by
  rw [readValue]
  cases readObject (readValue dialect depth) rest <;> rfl

theorem unbounded_readValue_scalar (dialect : Dialect) (depth : Nat) {text : List Char}
    (noArray : ∀ rest, text ≠ '[' :: rest) (noObject : ∀ rest, text ≠ '{' :: rest) :
    unbounded (readValue dialect depth text) = readScalar dialect text := by
  rw [readValue]
  · split
    · rename_i failed
      exact failed.symm
    · rename_i found
      exact found.symm
  · exact fun rest _ => noArray rest
  · exact fun rest _ => noObject rest
  · exact fun _ rest _ => noArray rest
  · exact fun _ rest _ => noObject rest

theorem read_unmarked (dialect : Dialect) {text : List Char}
    (unmarked : ∀ rest, text ≠ '\uFEFF' :: rest) :
    read dialect text =
      match unbounded (readValue dialect depthLimit (skipSpace text)) with
      | .error fault => .error fault
      | .ok (value, rest) =>
          match skipSpace rest with
          | [] => .ok value
          | rest => .error (.malformed .extraData rest) := by
  rw [read]
  · cases readValue dialect depthLimit (skipSpace text) <;> rfl
  · exact unmarked

end PalletTypes.Json

import PalletTypes.Proofs.Json.Grammar

/-!
String literals are read as the grammar has them. The reader joins a low
surrogate to the one read just before it, the grammar a high one to the next
part; the two agree as long as nothing read before waits for its low half.
-/

namespace PalletTypes.Json.StringLiteral

open Grammar

def pushPart (done : Text) : Part → Text
  | .character character => .scalar character :: done
  | .unit unit => pushUnit unit done

def Pairs (high low : Nat) : Prop :=
  (0xD800 ≤ high ∧ high < 0xDC00) ∧ 0xDC00 ≤ low ∧ low < 0xE000

/-- What was read last does not join the unit that comes first. -/
def Apart (done : Text) (parts : List Part) : Prop :=
  ∀ half before low after, done = .surrogate half :: before →
    parts = .unit low :: after → ¬ Pairs half.value low

theorem low_value (half : Surrogate) : 0xD800 ≤ half.value := by
  simp only [Surrogate.value]
  omega

theorem value_of_ofUnit {unit : Nat} {half : Surrogate}
    (same : CodePoint.ofUnit unit = .surrogate half) : half.value = unit := by
  unfold CodePoint.ofUnit at same
  split at same
  · rename_i bound
    injection same with same
    rw [← same]
    exact Nat.add_sub_cancel' bound.1
  · cases same

theorem ofUnit_of_high {unit : Nat} (low : 0xD800 ≤ unit) (high : unit < 0xDC00) :
    ∃ half, CodePoint.ofUnit unit = .surrogate half ∧ half.value = unit := by
  have bound : 0xD800 ≤ unit ∧ unit < 0xE000 := by omega
  have isHalf : CodePoint.ofUnit unit = .surrogate ⟨⟨unit - 0xD800, by omega⟩⟩ := by
    simp [CodePoint.ofUnit, bound]
  exact ⟨_, isHalf, value_of_ofUnit isHalf⟩

theorem pushUnit_of_apart {unit : Nat} {done : Text} {parts : List Part}
    (apart : Apart done (.unit unit :: parts)) :
    pushUnit unit done = CodePoint.ofUnit unit :: done := by
  fun_cases pushUnit unit done with
  | case1 half done paired =>
      have noPair := apart half done unit parts rfl rfl
      exact absurd ⟨⟨low_value half, paired.1⟩, paired.2⟩ noPair
  | case2 | case3 => rfl

theorem pushUnit_of_pairs {half : Surrogate} {low : Nat} (done : Text)
    (paired : Pairs half.value low) :
    pushUnit low (.surrogate half :: done) =
      .scalar (Char.ofNat
        (0x10000 + (half.value - 0xD800) * 0x400 + (low - 0xDC00))) :: done := by
  simp only [pushUnit, paired.1.2, paired.2, and_self, if_true]

theorem foldl_pushPart {done : Text} (parts : List Part) (apart : Apart done parts) :
    (parts.foldl pushPart done).reverse = done.reverse ++ joinParts parts := by
  fun_induction joinParts parts generalizing done with
  | case1 => simp
  | case2 character parts induction =>
      rw [List.foldl_cons, pushPart, induction]
      · simp
      · intro half before low after isHalf
        cases isHalf
  | case3 high low parts paired induction =>
      obtain ⟨half, isHalf, value⟩ := ofUnit_of_high paired.1.1 paired.1.2
      rw [List.foldl_cons, pushPart, pushUnit_of_apart apart, List.foldl_cons, pushPart,
        isHalf, pushUnit_of_pairs done (value ▸ paired), induction]
      · simp [value]
      · intro half before low after isHalf
        cases isHalf
  | case4 high low parts noPair induction =>
      rw [List.foldl_cons, pushPart, pushUnit_of_apart apart, induction]
      · simp
      · intro half before second after isHalf isSecond paired
        cases isSecond
        rw [value_of_ofUnit (List.cons.inj isHalf).1] at paired
        exact noPair paired
  | case5 unit parts noUnit induction =>
      rw [List.foldl_cons, pushPart, pushUnit_of_apart apart, induction]
      · simp
      · intro half before low after _ isUnit
        exact absurd isUnit (noUnit low after)

theorem foldl_pushPart_nil (parts : List Part) :
    (parts.foldl pushPart []).reverse = joinParts parts := by
  have apart : Apart [] parts := by
    intro half before low after isHalf
    cases isHalf
  rw [foldl_pushPart parts apart, List.reverse_nil, List.nil_append]

theorem not_mem_of_unit? {first second third fourth : Char} {unit : Nat}
    (named : unit? first second third fourth = some unit) {other : Char}
    (noDigit : hexDigit? other = none) : other ∉ [first, second, third, fourth] := by
  intro member
  simp only [List.mem_cons, List.not_mem_nil, or_false] at member
  unfold unit? at named
  rcases member with rfl | rfl | rfl | rfl <;> simp [noDigit] at named

/-! One step of the reader, by what the text begins with. -/

theorem read_character {character : Char} (noQuote : character ≠ '"')
    (noBackslash : character ≠ '\\') (opening rest : List Char) (done : Text) :
    read opening done (character :: rest) =
      if character.toNat < 0x20 then
        .error (.malformed .controlCharacter (character :: rest))
      else read opening (.scalar character :: done) rest := by
  rw [read]
  · exact noQuote
  · exact fun isBackslash _ => noBackslash isBackslash
  · exact fun _ _ _ _ _ _ isBackslash _ => noBackslash isBackslash
  · exact fun _ isBackslash _ => noBackslash isBackslash
  · exact fun _ _ isBackslash _ => noBackslash isBackslash

theorem read_letter {letter : Char} (noNumber : letter ≠ 'u') (opening rest : List Char)
    (done : Text) :
    read opening done ('\\' :: letter :: rest) =
      match escaped? letter with
      | none => .error (.malformed .escape ('\\' :: letter :: rest))
      | some character => read opening (.scalar character :: done) rest := by
  cases named : escaped? letter with
  | none => simp only [read, noNumber, named, false_implies, implies_true]
  | some character => simp only [read, noNumber, named, false_implies, implies_true]

/-- The unit that the text begins with, if there is more text after its digits. -/
def takeUnit? : List Char → Option (Nat × List Char)
  | first :: second :: third :: fourth :: next :: rest =>
      (unit? first second third fourth).map fun unit => (unit, next :: rest)
  | _ => none

theorem takeUnit?_eq_some_iff {text rest : List Char} {unit : Nat} :
    takeUnit? text = some (unit, rest) ↔ ∃ first second third fourth,
      text = first :: second :: third :: fourth :: rest ∧
        unit? first second third fourth = some unit ∧ rest ≠ [] := by
  constructor
  · fun_cases takeUnit? text with
    | case1 first second third fourth next rest =>
        intro taken
        obtain ⟨unit, named, same⟩ := Option.map_eq_some_iff.mp taken
        cases same
        exact ⟨first, second, third, fourth, rfl, named, List.cons_ne_nil _ _⟩
    | case2 =>
        intro taken
        cases taken
  · rintro ⟨first, second, third, fourth, rfl, named, more⟩
    cases rest with
    | nil => exact absurd rfl more
    | cons next rest => simp only [takeUnit?, named, Option.map_some]

theorem read_number (opening rest : List Char) (done : Text) :
    read opening done ('\\' :: 'u' :: rest) =
      match takeUnit? rest with
      | none => .error (.malformed .unicodeEscape ('u' :: rest))
      | some (unit, after) => read opening (pushUnit unit done) after := by
  fun_cases takeUnit? rest with
  | case1 first second third fourth next rest =>
      cases named : unit? first second third fourth with
      | none => simp only [read, named, Option.map_none]
      | some unit => simp only [read, named, Option.map_some]
  | case2 rest short =>
      rw [read]
      intro first second third fourth next after same
      exact short first second third fourth next after same

theorem read_part {text rest : List Char} {part : Part} (opening : List Char)
    (done : Text) (spelled : PartText text part) (more : rest ≠ []) :
    read opening done (text ++ rest) = read opening (pushPart done part) rest := by
  cases spelled with
  | plain printable noQuote noBackslash =>
      exact (read_character noQuote noBackslash opening rest done).trans
        (if_neg (Nat.not_lt.mpr printable))
  | @letter letter character escape =>
      have noNumber : letter ≠ 'u' := by
        rintro rfl
        cases escape
      refine (read_letter noNumber opening rest done).trans ?_
      rw [escape]
      rfl
  | @number first second third fourth unit named =>
      have taken := takeUnit?_eq_some_iff.mpr
        ⟨first, second, third, fourth, rfl, named, more⟩
      refine (read_number opening (first :: second :: third :: fourth :: rest) done).trans ?_
      rw [taken]
      rfl

theorem read_parts {text : List Char} {parts : List Part} (opening rest : List Char)
    (done : Text) (spelled : PartsText text parts) :
    read opening done (text ++ '"' :: rest) =
      .ok ((parts.foldl pushPart done).reverse, rest) := by
  induction spelled generalizing done with
  | nil => rfl
  | cons spelled _ induction =>
      rw [List.append_assoc, read_part opening done spelled (by simp), induction,
        List.foldl_cons]

theorem read_append {text : List Char} {value : Text} (spelled : StringText text value) :
    ∃ body, text = '"' :: body ∧ ∀ opening rest,
      read opening [] (body ++ rest) = .ok (value, rest) := by
  cases spelled with
  | quoted spelled =>
      refine ⟨_, rfl, fun opening rest => ?_⟩
      rw [List.append_assoc, List.singleton_append, read_parts opening rest [] spelled,
        foldl_pushPart_nil]

theorem read_parts_spec {opening done text value rest}
    (result : read opening done text = .ok (value, rest)) :
    ∃ spelled parts, text = spelled ++ '"' :: rest ∧ PartsText spelled parts ∧
      value = (parts.foldl pushPart done).reverse := by
  fun_induction read opening done text with
  | case1 | case3 | case4 | case6 | case7 | case9 => cases result
  | case2 =>
      cases result
      exact ⟨[], [], rfl, .nil, rfl⟩
  | case5 done first second third fourth next rest unit named induction =>
      obtain ⟨spelled, parts, split, isParts, pushed⟩ := induction result
      refine ⟨['\\', 'u', first, second, third, fourth] ++ spelled, _, ?_,
        .cons (.number named) isParts, pushed⟩
      rw [List.append_assoc, ← split]
      rfl
  | case8 done letter rest _ _ character escape induction =>
      obtain ⟨spelled, parts, split, isParts, pushed⟩ := induction result
      refine ⟨['\\', letter] ++ spelled, _, ?_, .cons (.letter escape) isParts, pushed⟩
      rw [List.append_assoc, ← split]
      rfl
  | case10 done character rest noQuote alone _ _ notEscape notControl induction =>
      have noBackslash : character ≠ '\\' := by
        intro isBackslash
        cases rest with
        | nil => exact alone isBackslash rfl
        | cons letter rest => exact notEscape letter rest isBackslash rfl
      obtain ⟨spelled, parts, split, isParts, pushed⟩ := induction result
      refine ⟨[character] ++ spelled, _, ?_,
        .cons (.plain (Nat.not_lt.mp notControl) noQuote noBackslash) isParts, pushed⟩
      rw [List.append_assoc, ← split]
      rfl

theorem read_spec {opening text rest : List Char} {value : Text}
    (result : read opening [] text = .ok (value, rest)) :
    ∃ body, text = body ++ rest ∧ StringText ('"' :: body) value := by
  obtain ⟨spelled, parts, split, isParts, pushed⟩ := read_parts_spec result
  refine ⟨spelled ++ ['"'], by rw [split]; simp, ?_⟩
  rw [pushed, foldl_pushPart_nil]
  exact .quoted isParts

end PalletTypes.Json.StringLiteral

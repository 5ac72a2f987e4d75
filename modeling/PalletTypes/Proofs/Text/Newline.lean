import PalletTypes.Text.Newline

/-!
What turning line ends does to a text. Only carriage returns, and line feeds right
after them, are touched; every character other than a line feed comes from itself.
-/

namespace PalletTypes.Newline

theorem normalizeOnto_append (more done text : List Char) :
    normalizeOnto (more ++ done) text = done.reverse ++ normalizeOnto more text := by
  induction more, text using normalizeOnto.induct with
  | case1 more => simp [normalizeOnto]
  | case2 more rest induction =>
      rw [normalizeOnto, normalizeOnto]
      exact induction
  | case3 more rest alone induction =>
      rw [normalizeOnto, normalizeOnto]
      · exact induction
      · exact alone
      · exact alone
  | case4 more character rest noPair noReturn induction =>
      rw [normalizeOnto, normalizeOnto]
      · exact induction
      all_goals assumption

theorem normalize_pair (rest : List Char) :
    normalize ('\r' :: '\n' :: rest) = '\n' :: normalize rest := by
  rw [normalize, normalizeOnto]
  exact normalizeOnto_append [] ['\n'] rest

theorem normalize_return {rest : List Char} (alone : ∀ after, rest ≠ '\n' :: after) :
    normalize ('\r' :: rest) = '\n' :: normalize rest := by
  rw [normalize, normalizeOnto]
  · exact normalizeOnto_append [] ['\n'] rest
  · exact alone

theorem normalize_cons {character : Char} (other : character ≠ '\r') (rest : List Char) :
    normalize (character :: rest) = character :: normalize rest := by
  rw [normalize, normalizeOnto]
  · exact normalizeOnto_append [] [character] rest
  · exact fun _ isReturn _ => other isReturn
  · exact other

/-- A text is empty, or begins with a line end or with another character. -/
@[elab_as_elim]
theorem induction_on {motive : List Char → Prop} (text : List Char) (nil : motive [])
    (pair : ∀ rest, motive rest → motive ('\r' :: '\n' :: rest))
    (lone : ∀ rest, (∀ after, rest ≠ '\n' :: after) → motive rest → motive ('\r' :: rest))
    (other : ∀ character rest, character ≠ '\r' → motive rest → motive (character :: rest)) :
    motive text := by
  refine normalizeOnto.induct (fun _ text => motive text) ?_ ?_ ?_ ?_ [] text
  · exact fun _ => nil
  · exact fun _ => pair
  · exact fun _ rest alone => lone rest alone
  · exact fun _ character rest _ noReturn => other character rest noReturn

theorem normalize_first (character : Char) (rest : List Char) :
    ∃ first after, normalize (character :: rest) = first :: after ∧
      (first = character ∨ character = '\r' ∧ first = '\n') := by
  generalize start : character :: rest = text
  induction text using induction_on with
  | nil => cases start
  | pair rest =>
      cases start
      exact ⟨'\n', _, normalize_pair rest, Or.inr ⟨rfl, rfl⟩⟩
  | lone rest alone =>
      cases start
      exact ⟨'\n', _, normalize_return alone, Or.inr ⟨rfl, rfl⟩⟩
  | other character rest noReturn =>
      cases start
      exact ⟨character, _, normalize_cons noReturn rest, Or.inl rfl⟩

theorem normalize_append (word : List Char) (plain : '\r' ∉ word) (rest : List Char) :
    normalize (word ++ rest) = word ++ normalize rest := by
  induction word with
  | nil => rfl
  | cons character word induction =>
      have first : character ≠ '\r' := Ne.symm (List.ne_of_not_mem_cons plain)
      rw [List.cons_append, normalize_cons first,
        induction (List.not_mem_of_not_mem_cons plain), List.cons_append]

theorem normalize_eq_self {text : List Char} (clean : '\r' ∉ text) :
    normalize text = text := by
  have unchanged := normalize_append text clean []
  rwa [List.append_nil, show normalize [] = [] from rfl, List.append_nil] at unchanged

theorem of_normalize_cons {character : Char} {text rest : List Char}
    (noFeed : character ≠ '\n') (turned : normalize text = character :: rest) :
    ∃ after, text = character :: after ∧ normalize after = rest := by
  induction text using induction_on with
  | nil => cases turned
  | pair after =>
      rw [normalize_pair] at turned
      exact absurd (List.cons.inj turned).1.symm noFeed
  | lone after alone =>
      rw [normalize_return alone] at turned
      exact absurd (List.cons.inj turned).1.symm noFeed
  | other first after noReturn =>
      rw [normalize_cons noReturn] at turned
      obtain ⟨rfl, same⟩ := List.cons.inj turned
      exact ⟨after, rfl, same⟩

/-- A word without line feeds stands in the text as it does after the line ends
are turned. -/
theorem of_normalize_append (word : List Char) {text rest : List Char}
    (noFeed : '\n' ∉ word) (turned : normalize text = word ++ rest) :
    ∃ after, text = word ++ after ∧ normalize after = rest := by
  induction word generalizing text with
  | nil => exact ⟨text, rfl, turned⟩
  | cons character word induction =>
      have first : character ≠ '\n' := Ne.symm (List.ne_of_not_mem_cons noFeed)
      obtain ⟨after, rfl, same⟩ := of_normalize_cons first turned
      obtain ⟨last, rfl, final⟩ := induction (List.not_mem_of_not_mem_cons noFeed) same
      exact ⟨last, rfl, final⟩

theorem normalize_ne_append (word : List Char) {text : List Char} (noFeed : '\n' ∉ word)
    (absent : ∀ after, text = word ++ after → False) (rest : List Char)
    (turned : normalize text = word ++ rest) : False := by
  obtain ⟨after, same, _⟩ := of_normalize_append word noFeed turned
  exact absent after same

theorem normalize_eq_nil_iff {text : List Char} : normalize text = [] ↔ text = [] := by
  cases text with
  | nil => exact iff_of_true rfl rfl
  | cons character rest =>
      obtain ⟨first, after, start, _⟩ := normalize_first character rest
      simp [start]

/-! Runs of characters of a kind, where both line ends are of the kind or neither is. -/

theorem dropWhile_normalize {kind : Char → Bool} (alike : kind '\r' = kind '\n')
    (text : List Char) :
    (normalize text).dropWhile kind = normalize (text.dropWhile kind) := by
  induction text using induction_on with
  | nil => rfl
  | pair rest induction =>
      rw [normalize_pair, List.dropWhile_cons, List.dropWhile_cons, List.dropWhile_cons,
        alike]
      split
      · exact induction
      · exact (normalize_pair rest).symm
  | lone rest alone induction =>
      rw [normalize_return alone, List.dropWhile_cons, List.dropWhile_cons, alike]
      split
      · exact induction
      · exact (normalize_return alone).symm
  | other character rest noReturn induction =>
      rw [normalize_cons noReturn, List.dropWhile_cons, List.dropWhile_cons]
      split
      · exact induction
      · exact (normalize_cons noReturn rest).symm

theorem takeWhile_normalize {kind : Char → Bool} (noReturn : kind '\r' = false)
    (noFeed : kind '\n' = false) (text : List Char) :
    (normalize text).takeWhile kind = text.takeWhile kind := by
  induction text using induction_on with
  | nil => rfl
  | pair rest => simp [normalize_pair, noReturn, noFeed]
  | lone rest alone => simp [normalize_return alone, noReturn, noFeed]
  | other character rest other induction =>
      rw [normalize_cons other, List.takeWhile_cons, List.takeWhile_cons, induction]

end PalletTypes.Newline

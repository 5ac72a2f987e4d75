import Mathlib.Data.List.Forall2
import Mathlib.Data.List.TakeWhile
import PalletTypes.Options

/-!
How options are spelled. Every way to write a sequence of options is read as that sequence, so
what is asked for depends neither on the spelling nor on the order of different options.
-/

namespace PalletTypes

/-- A long name, or a beginning of it with at least one letter. -/
def Switch.IsName (switch : Switch) (name : List Char) : Prop :=
  3 ≤ name.length ∧ name <+: switch.longName.toList

theorem Switch.beginningWith_take : ∀ switch ∈ all, ∀ length < 10, 3 ≤ length →
    beginningWith (switch.longName.toList.take length) = [switch] := by
  decide

theorem Switch.mem_all (switch : Switch) : switch ∈ all := by
  rcases switch with flag | slot
  · cases flag <;> decide
  · cases slot <;> decide

theorem Switch.isName_of_take {switch : Switch} (length : Nat) (enough : 3 ≤ length)
    (within : length ≤ switch.longName.toList.length) :
    switch.IsName (switch.longName.toList.take length) := by
  refine ⟨?_, List.take_prefix length _⟩
  rwa [List.length_take, Nat.min_eq_left within]

theorem Switch.isName_longName (switch : Switch) : switch.IsName switch.longName.toList := by
  have enough : ∀ switch ∈ all, 3 ≤ switch.longName.toList.length := by decide
  exact ⟨enough switch switch.mem_all, List.prefix_refl _⟩

namespace Switch.IsName

variable {switch : Switch} {name : List Char} (isName : switch.IsName name)
include isName

theorem eq_take : name = switch.longName.toList.take name.length :=
  List.prefix_iff_eq_take.mp isName.2

theorem beginningWith : Switch.beginningWith name = [switch] := by
  have short : ∀ switch ∈ all, switch.longName.toList.length < 10 := by decide
  have bound := Nat.lt_of_le_of_lt isName.2.length_le (short switch switch.mem_all)
  rw [isName.eq_take]
  exact beginningWith_take switch switch.mem_all _ bound isName.1

theorem equals_not_mem : '=' ∉ name := by
  have absent : ∀ switch ∈ all, '=' ∉ switch.longName.toList := by decide
  exact fun member => absent switch switch.mem_all (isName.2.subset member)

theorem eq_dashes : ∃ letter rest, name = '-' :: '-' :: letter :: rest := by
  have dashes : ∀ switch ∈ all, switch.longName.toList.take 2 = ['-', '-'] := by decide
  obtain ⟨enough, part⟩ := isName
  obtain ⟨first, second, letter, rest, rfl⟩ :
      ∃ first second letter rest, name = first :: second :: letter :: rest := by
    match name, enough with
    | first :: second :: letter :: rest, _ => exact ⟨first, second, letter, rest, rfl⟩
  obtain ⟨after, whole⟩ := part
  have starts := dashes switch switch.mem_all
  rw [← whole] at starts
  cases starts
  exact ⟨letter, rest, rfl⟩

end Switch.IsName

namespace Argument

theorem classify_plain {text : List Char} (plain : text.head? ≠ some '-') :
    classify text = .ok (.plain text) := by
  fun_cases classify text <;> simp_all

theorem splitAtEquals_of_not_mem {name : List Char} (absent : '=' ∉ name) :
    splitAtEquals name = (name, none) := by
  have inside : ∀ character ∈ name, (character != '=') = true :=
    fun character member => bne_iff_ne.mpr (ne_of_mem_of_not_mem member absent)
  unfold splitAtEquals
  rw [List.dropWhile_eq_nil_iff.mpr inside]

theorem splitAtEquals_joined {name : List Char} (absent : '=' ∉ name) (value : List Char) :
    splitAtEquals (name ++ '=' :: value) = (name, some value) := by
  have inside : ∀ character ∈ name, (character != '=') = true :=
    fun character member => bne_iff_ne.mpr (ne_of_mem_of_not_mem member absent)
  unfold splitAtEquals
  rw [List.dropWhile_append_of_pos inside, List.takeWhile_append_of_pos inside]
  simp

theorem classify_long {text rest : List Char} {letter : Char}
    (begins : text = '-' :: '-' :: letter :: rest) : classify text = classifyLong text := by
  rw [begins]
  rfl

theorem classify_name {switch : Switch} {name : List Char} (isName : switch.IsName name) :
    classify name = .ok (.long switch none) := by
  obtain ⟨letter, rest, begins⟩ := isName.eq_dashes
  rw [classify_long begins]
  simp only [classifyLong, splitAtEquals_of_not_mem isName.equals_not_mem,
    isName.beginningWith]

theorem classify_joined {switch : Switch} {name : List Char} (isName : switch.IsName name)
    (value : List Char) :
    classify (name ++ '=' :: value) = .ok (.long switch (some value)) := by
  obtain ⟨letter, rest, begins⟩ := isName.eq_dashes
  have joined : name ++ '=' :: value = '-' :: '-' :: letter :: (rest ++ '=' :: value) := by
    rw [begins]
    rfl
  rw [classify_long joined]
  simp only [classifyLong, splitAtEquals_joined isName.equals_not_mem,
    isName.beginningWith]

end Argument

/-- One or more letters behind one dash, with the options that they stand for. The last option
may find its value in the next argument. -/
inductive Letters : List Char → List Occurrence → Option Slot → Prop
  | verbose : Letters ['v'] [.flag .verbose] none
  | output : Letters ['o'] [] (some .output)
  | attached {value : List Char} :
      value ≠ [] → value.head? ≠ some '=' →
        Letters ('o' :: value) [.slot .output value] none
  | more {text : List Char} {occurrences : List Occurrence} {waiting : Option Slot} :
      Letters text occurrences waiting →
        Letters ('v' :: text) (.flag .verbose :: occurrences) waiting

/-- The ways to write an option, or several in one cluster of letters. A value stands in an
argument of its own only if no dash begins it. -/
inductive Spells : List Occurrence → List (List Char) → Prop
  | flag {flag : Flag} {name : List Char} :
      flag ≠ .help → (Switch.flag flag).IsName name → Spells [.flag flag] [name]
  | next {slot : Slot} {name value : List Char} :
      (Switch.slot slot).IsName name → value.head? ≠ some '-' →
        Spells [.slot slot value] [name, value]
  | joined {slot : Slot} {name value : List Char} :
      (Switch.slot slot).IsName name → Spells [.slot slot value] [name ++ '=' :: value]
  | letters {text : List Char} {occurrences : List Occurrence} :
      Letters text occurrences none → Spells occurrences ['-' :: text]
  | lettersNext {text value : List Char} {occurrences : List Occurrence} {slot : Slot} :
      Letters text occurrences (some slot) → value.head? ≠ some '-' →
        Spells (occurrences ++ [.slot slot value]) ['-' :: text, value]

/-- The ways to write a sequence of options as the arguments of a command line. -/
inductive Spelled : List Occurrence → List (List Char) → Prop
  | nil : Spelled [] []
  | append {occurrences others : List Occurrence} {texts rest : List (List Char)} :
      Spells occurrences texts → Spelled others rest →
        Spelled (occurrences ++ others) (texts ++ rest)

/-! What letters are read as. -/

theorem Argument.attachedTo_of_ne {text : List Char} (nonempty : text ≠ [])
    (noEquals : text.head? ≠ some '=') : attachedTo text = some text := by
  fun_cases attachedTo text <;> simp_all

/-- A letter before others adds its option to theirs. -/
theorem Cluster.ofShort_flag {flag : Flag} {switch : Switch} {letter : Char}
    {rest : List Char} {cluster : Cluster} (named : Switch.ofLetter? letter = some switch)
    (noEquals : rest.head? ≠ some '=')
    (clustered : ofArgument (.short switch (Argument.attachedTo rest)) = some (.ok cluster)) :
    ofShort (.flag flag) (letter :: rest) = .ok (cluster.prepend flag) := by
  cases rest with
  | nil =>
      have alone : ofSwitch switch = cluster := by
        simpa [Argument.attachedTo, ofArgument] using clustered
      unfold ofShort
      simp only [named, alone]
  | cons next rest =>
      rw [Argument.attachedTo_of_ne (List.cons_ne_nil next rest) noEquals] at clustered
      have others : ofShort switch (next :: rest) = .ok cluster := Option.some.inj clustered
      unfold ofShort
      simp only [named, others, Except.map]

theorem Letters.begins {text : List Char} {occurrences : List Occurrence}
    {waiting : Option Slot} (letters : Letters text occurrences waiting) :
    ∃ letter rest switch, text = letter :: rest ∧ letter ≠ '-' ∧ letter ≠ '=' ∧
      rest.head? ≠ some '=' ∧ Switch.ofLetter? letter = some switch ∧
      Cluster.ofArgument (.short switch (Argument.attachedTo rest)) =
        some (.ok ⟨occurrences, waiting⟩) := by
  induction letters with
  | verbose | output =>
      exact ⟨_, _, _, rfl, by decide, by decide, by decide, rfl, rfl⟩
  | @attached value nonempty noEquals =>
      refine ⟨_, _, _, rfl, by decide, by decide, noEquals, rfl, ?_⟩
      rw [Argument.attachedTo_of_ne nonempty noEquals, Cluster.ofArgument, Cluster.ofShort]
  | @more text occurrences waiting letters induction =>
      obtain ⟨letter, rest, switch, rfl, _, noEquals, noMore, named, clustered⟩ := induction
      have headNoEquals : (letter :: rest).head? ≠ some '=' := by simpa using noEquals
      refine ⟨'v', letter :: rest, _, rfl, by decide, by decide, headNoEquals, rfl, ?_⟩
      rw [Argument.attachedTo_of_ne (List.cons_ne_nil letter rest) headNoEquals,
        Cluster.ofArgument, Cluster.ofShort_flag named noMore clustered]
      rfl

theorem Letters.cluster {text : List Char} {occurrences : List Occurrence}
    {waiting : Option Slot} (letters : Letters text occurrences waiting) :
    ∃ switch attached, Argument.classify ('-' :: text) = .ok (.short switch attached) ∧
      Cluster.ofArgument (.short switch attached) = some (.ok ⟨occurrences, waiting⟩) := by
  obtain ⟨letter, rest, switch, rfl, noDash, _, _, named, clustered⟩ := letters.begins
  refine ⟨switch, Argument.attachedTo rest, ?_, clustered⟩
  unfold Argument.classify
  simp [Argument.classifyShort, named, noDash]

/-! What texts are read as, whatever stands before and after them. -/

namespace Command

theorem taking_append (options : Options) (rest : Options → Command)
    (first second : List Occurrence) :
    taking options rest (first ++ second) =
      taking options (fun options => taking options rest second) first := by
  induction first generalizing options with
  | nil => rfl
  | cons occurrence first induction =>
      simp only [List.cons_append, taking]
      cases options.take? occurrence with
      | none => rfl
      | some options => exact induction options

def Gives (arguments : List Argument) (occurrences : List Occurrence) : Prop :=
  ∀ options strays rest, ofArguments options strays (arguments ++ rest) =
    taking options (fun options => ofArguments options strays rest) occurrences

theorem Gives.append {first second : List Argument} {occurrences others : List Occurrence}
    (gives : Gives first occurrences) (givesOthers : Gives second others) :
    Gives (first ++ second) (occurrences ++ others) := by
  intro options strays rest
  rw [List.append_assoc, gives, taking_append]
  simp only [givesOthers _ strays rest]

theorem gives_of_closed {argument : Argument} {occurrences : List Occurrence}
    (clustered : Cluster.ofArgument argument = some (.ok ⟨occurrences, none⟩)) :
    Gives [argument] occurrences := by
  intro options strays rest
  rw [List.singleton_append]
  conv_lhs => unfold ofArguments
  simp only [clustered]

theorem gives_of_waiting {argument : Argument} {occurrences : List Occurrence} {slot : Slot}
    (clustered : Cluster.ofArgument argument = some (.ok ⟨occurrences, some slot⟩))
    (value : List Char) :
    Gives [argument, .plain value] (occurrences ++ [.slot slot value]) := by
  intro options strays rest
  rw [List.cons_append, List.singleton_append]
  conv_lhs => unfold ofArguments
  simp only [clustered]

def Reads (texts : List (List Char)) (occurrences : List Occurrence) : Prop :=
  ∃ arguments, Gives arguments occurrences ∧
    ∀ rest, Argument.classifyAll (texts ++ rest) =
      (Argument.classifyAll rest).map (arguments ++ ·)

theorem reads_nil : Reads [] [] := by
  refine ⟨[], fun _ _ _ => rfl, fun rest => ?_⟩
  rw [List.nil_append]
  cases Argument.classifyAll rest <;> rfl

theorem Reads.append {texts rest : List (List Char)} {occurrences others : List Occurrence}
    (reads : Reads texts occurrences) (readsOthers : Reads rest others) :
    Reads (texts ++ rest) (occurrences ++ others) := by
  obtain ⟨first, gives, classified⟩ := reads
  obtain ⟨second, givesOthers, classifiedOthers⟩ := readsOthers
  refine ⟨first ++ second, gives.append givesOthers, fun last => ?_⟩
  rw [List.append_assoc, classified, classifiedOthers]
  cases Argument.classifyAll last with
  | error fault => rfl
  | ok arguments => simp only [Except.map, List.append_assoc]

theorem classifyAll_cons {text : List Char} {argument : Argument}
    (classified : Argument.classify text = .ok argument) (noSeparator : argument ≠ .separator)
    (rest : List (List Char)) :
    Argument.classifyAll (text :: rest) = (Argument.classifyAll rest).map (argument :: ·) := by
  rw [Argument.classifyAll, classified]
  cases argument with
  | separator => exact absurd rfl noSeparator
  | plain | unknown | long | short => rfl

theorem reads_of_closed {text : List Char} {argument : Argument}
    {occurrences : List Occurrence} (classified : Argument.classify text = .ok argument)
    (clustered : Cluster.ofArgument argument = some (.ok ⟨occurrences, none⟩)) :
    Reads [text] occurrences := by
  refine ⟨[argument], gives_of_closed clustered, classifyAll_cons classified ?_⟩
  rintro rfl
  cases clustered

theorem reads_of_waiting {text value : List Char} {argument : Argument}
    {occurrences : List Occurrence} {slot : Slot}
    (classified : Argument.classify text = .ok argument)
    (clustered : Cluster.ofArgument argument = some (.ok ⟨occurrences, some slot⟩))
    (plain : value.head? ≠ some '-') :
    Reads [text, value] (occurrences ++ [.slot slot value]) := by
  have noSeparator : argument ≠ .separator := by
    rintro rfl
    cases clustered
  refine ⟨[argument, .plain value], gives_of_waiting clustered value, fun rest => ?_⟩
  rw [List.cons_append, classifyAll_cons classified noSeparator, List.singleton_append,
    classifyAll_cons (Argument.classify_plain plain) (by simp)]
  cases Argument.classifyAll rest <;> rfl

theorem reads_of_spells {occurrences : List Occurrence} {texts : List (List Char)}
    (spells : Spells occurrences texts) : Reads texts occurrences := by
  cases spells with
  | flag _ isName => exact reads_of_closed (Argument.classify_name isName) rfl
  | next isName plain => exact reads_of_waiting (Argument.classify_name isName) rfl plain
  | joined isName => exact reads_of_closed (Argument.classify_joined isName _) rfl
  | letters letters =>
      obtain ⟨switch, attached, classified, clustered⟩ := letters.cluster
      exact reads_of_closed classified clustered
  | lettersNext letters plain =>
      obtain ⟨switch, attached, classified, clustered⟩ := letters.cluster
      exact reads_of_waiting classified clustered plain

theorem reads_of_spelled {occurrences : List Occurrence} {texts : List (List Char)}
    (spelled : Spelled occurrences texts) : Reads texts occurrences := by
  induction spelled with
  | nil => exact reads_nil
  | append spells _ induction => exact (reads_of_spells spells).append induction

theorem Reads.ofTexts_append {texts : List (List Char)} {occurrences : List Occurrence}
    (reads : Reads texts occurrences) (rest : List (List Char)) :
    ofTexts (texts ++ rest) =
      match Argument.classifyAll rest with
      | .error fault => .refused fault
      | .ok arguments => taking .standard (fun options => ofArguments options [] arguments)
          occurrences := by
  obtain ⟨arguments, gives, classified⟩ := reads
  rw [ofTexts, classified]
  cases Argument.classifyAll rest with
  | error fault => rfl
  | ok others => exact gives .standard [] others

end Command

/-! What options ask for. -/

/-- The values that are given for an option, in order. -/
def valuesOf (slot : Slot) (occurrences : List Occurrence) : List (List Char) :=
  occurrences.filterMap fun occurrence =>
    match occurrence with
    | .slot owner value => if owner = slot then some value else none
    | .flag _ => none

def Options.given (options : Options) : Slot → Option (Option Path)
  | .root => options.root
  | .output => options.output

def Options.asked (occurrences : List Occurrence) : Options where
  root := (valuesOf .root occurrences).getLast?.map Slot.path?
  output := (valuesOf .output occurrences).getLast?.map Slot.path?
  check := decide (.flag .check ∈ occurrences)
  verbose := decide (.flag .verbose ∈ occurrences)

theorem Options.take?_asked (occurrences : List Occurrence) {occurrence : Occurrence}
    (noHelp : occurrence ≠ .flag .help) :
    (asked occurrences).take? occurrence = some (asked (occurrences ++ [occurrence])) := by
  rcases occurrence with flag | ⟨slot, value⟩
  · cases flag <;> simp_all [asked, take?, valuesOf]
  · cases slot <;> simp [asked, take?, valuesOf]

theorem Command.taking_asked (done : List Occurrence) (rest : Options → Command)
    {occurrences : List Occurrence} (noHelp : .flag .help ∉ occurrences) :
    taking (.asked done) rest occurrences = rest (.asked (done ++ occurrences)) := by
  induction occurrences generalizing done with
  | nil => rw [List.append_nil, taking]
  | cons occurrence occurrences induction =>
      rw [List.mem_cons, not_or] at noHelp
      rw [taking, Options.take?_asked done (Ne.symm noHelp.1)]
      simp only
      rw [induction _ noHelp.2, List.append_assoc, List.singleton_append]

theorem Letters.help_not_mem {text : List Char} {occurrences : List Occurrence}
    {waiting : Option Slot} (letters : Letters text occurrences waiting) :
    .flag .help ∉ occurrences := by
  induction letters with
  | verbose | output | attached => simp
  | more _ induction => simpa using induction

theorem Spelled.help_not_mem {occurrences : List Occurrence} {texts : List (List Char)}
    (spelled : Spelled occurrences texts) : .flag .help ∉ occurrences := by
  induction spelled with
  | nil => exact List.not_mem_nil
  | append spells _ induction =>
      rw [List.mem_append, not_or]
      refine ⟨?_, induction⟩
      cases spells with
      | flag noHelp => simpa using noHelp.symm
      | next | joined => simp
      | letters letters => exact letters.help_not_mem
      | lettersNext letters => simpa using letters.help_not_mem

theorem Command.ofTexts_of_spelled {occurrences : List Occurrence} {texts : List (List Char)}
    (spelled : Spelled occurrences texts) : ofTexts texts = .run (.asked occurrences) := by
  have read := (reads_of_spelled spelled).ofTexts_append []
  rw [List.append_nil] at read
  rw [read]
  exact taking_asked [] (fun options => ofArguments options [] []) spelled.help_not_mem

/-- Options that are spelled in any way are accepted. An option that takes a path holds the
path of the last value given for it, unless that is two dashes; a flag is raised if it occurs.
So the spellings do not count, nor does the order of different options. -/
theorem Command.options_of_spelled {occurrences : List Occurrence} {texts : List (List Char)}
    (spelled : Spelled occurrences texts) :
    ∃ options, ofTexts texts = .run options ∧
      (∀ slot, options.given slot = (valuesOf slot occurrences).getLast?.map fun value =>
        if value = ['-', '-'] then none else some (Path.ofChars value)) ∧
      (options.check = true ↔ .flag .check ∈ occurrences) ∧
      (options.verbose = true ↔ .flag .verbose ∈ occurrences) ∧
      ∀ others otherTexts, Spelled others otherTexts →
        (∀ slot, valuesOf slot others = valuesOf slot occurrences) →
          (∀ flag, .flag flag ∈ others ↔ .flag flag ∈ occurrences) →
            ofTexts otherTexts = .run options := by
  refine ⟨.asked occurrences, ofTexts_of_spelled spelled, ?_, decide_eq_true_iff,
    decide_eq_true_iff, ?_⟩
  · intro slot
    cases slot <;> rfl
  · intro others otherTexts spelledOthers sameValues sameFlags
    rw [ofTexts_of_spelled spelledOthers]
    simp only [Options.asked, sameValues, sameFlags]

/-- Two paths for the root, the second of them empty, and a cluster that ends in the letter of
the output. -/
def sampleOccurrences : List Occurrence :=
  [.slot .root "a=b".toList, .flag .verbose, .flag .verbose, .slot .output "c d".toList,
    .flag .check, .slot .root []]

def sampleTexts : List (List Char) :=
  ["--r=a=b".toList, "-vvo".toList, "c d".toList, "--che".toList, "--root".toList, []]

theorem spelled_sampleTexts : Spelled sampleOccurrences sampleTexts :=
  .append (.joined (Switch.isName_of_take 3 (by decide) (by decide)))
    (.append (.lettersNext (.more (.more .output)) (by decide))
      (.append (.flag (by decide) (Switch.isName_of_take 5 (by decide) (by decide)))
        (.append (.next (Switch.isName_longName (.slot .root)) (by decide)) .nil)))

theorem Command.options_of_spelled_sampleTexts :
    Spelled sampleOccurrences sampleTexts ∧
      ∃ options, ofTexts sampleTexts = .run options ∧
        options.root = some (some ⟨.relative, []⟩) ∧
        options.output = some (some ⟨.relative, ["c d"]⟩) ∧
        options.check = true ∧ options.verbose = true := by
  obtain ⟨options, read, given, check, verbose, _⟩ := options_of_spelled spelled_sampleTexts
  refine ⟨spelled_sampleTexts, options, read, ?_, ?_, check.mpr (by decide),
    verbose.mpr (by decide)⟩
  · exact (given .root).trans (by decide)
  · exact (given .output).trans (by decide)

/-- Two dashes are no path when they are the value, though they are spelled like any other. -/
theorem Command.root_of_sampleDashes :
    Spelled [.slot .root ['-', '-']] ["--root=--".toList] ∧
      Spelled [.slot .output ['-', '-']] ["-o--".toList] ∧
      ofTexts ["--root=--".toList] = .run { Options.standard with root := some none } ∧
      ofTexts ["-o--".toList] = .run { Options.standard with output := some none } := by
  refine ⟨?_, ?_, rfl, rfl⟩
  · exact .append (.joined (Switch.isName_longName (.slot .root))) .nil
  · exact .append (.letters (.attached (by decide) (by decide))) .nil

end PalletTypes

import PalletTypes.Options
import PalletTypes.Proofs.Except

/-!
Where the values of options come from: each is a part of one of the arguments.
-/

namespace PalletTypes

namespace Argument

/-- The text that an argument holds besides the name of an option. -/
def held : Argument → List Char
  | .separator => []
  | .plain text | .unknown text => text
  | .long _ attached | .short _ attached => attached.getD []

theorem splitAtEquals_sublist (text : List Char) :
    ((splitAtEquals text).2.getD []).Sublist text := by
  have dropped := List.dropWhile_sublist (l := text) fun character => character != '='
  unfold splitAtEquals
  split
  · exact List.nil_sublist text
  · rename_i mark value found
    rw [found] at dropped
    exact (List.sublist_cons_self mark value).trans dropped

theorem held_classifyLong {text : List Char} {argument : Argument}
    (classified : classifyLong text = .ok argument) : argument.held.Sublist text := by
  unfold classifyLong at classified
  simp only at classified
  split at classified
  · cases classified
    exact splitAtEquals_sublist text
  · cases classified
    split <;> exact List.Sublist.refl text
  · cases classified

theorem attachedTo_sublist (rest : List Char) :
    ((attachedTo rest).getD []).Sublist rest := by
  fun_cases attachedTo rest with
  | case1 => exact List.Sublist.refl _
  | case2 value => exact List.sublist_cons_self _ _
  | case3 => exact List.Sublist.refl _

theorem held_classifyShort (text : List Char) {letter : Char} {rest : List Char}
    (part : rest.Sublist text) : (classifyShort text letter rest).held.Sublist text := by
  unfold classifyShort
  split
  · exact (attachedTo_sublist rest).trans part
  · split <;> exact List.Sublist.refl text

theorem held_classify {text : List Char} {argument : Argument}
    (classified : classify text = .ok argument) : argument.held.Sublist text := by
  unfold classify at classified
  split at classified
  · cases classified
    exact List.nil_sublist _
  · exact held_classifyLong classified
  · rename_i letter rest _ _
    cases classified
    exact held_classifyShort _
      ((List.sublist_cons_self letter rest).trans (List.sublist_cons_self '-' _))
  · cases classified
    exact List.Sublist.refl _

def PartOf (texts : List (List Char)) (value : List Char) : Prop :=
  ∃ text ∈ texts, value.Sublist text

theorem PartOf.of_sublist {texts : List (List Char)} {value part : List Char}
    (isPart : PartOf texts value) (sublist : part.Sublist value) : PartOf texts part := by
  obtain ⟨text, member, within⟩ := isPart
  exact ⟨text, member, sublist.trans within⟩

theorem held_classifyAll {texts : List (List Char)} {arguments : List Argument}
    (classified : classifyAll texts = .ok arguments) :
    ∀ argument ∈ arguments, PartOf texts argument.held := by
  induction texts generalizing arguments with
  | nil =>
      cases classified
      exact fun _ member => nomatch member
  | cons text texts induction =>
      unfold classifyAll at classified
      split at classified
      · cases classified
      · cases classified
        refine List.forall_mem_cons.mpr ⟨⟨text, List.mem_cons_self, List.nil_sublist _⟩, ?_⟩
        intro argument member
        obtain ⟨plain, inTexts, rfl⟩ := List.mem_map.mp member
        exact ⟨plain, List.mem_cons_of_mem _ inTexts, List.Sublist.refl _⟩
      · rename_i first _ found
        obtain ⟨others, rest, rfl⟩ := map_eq_ok_iff.mp classified
        refine List.forall_mem_cons.mpr
          ⟨⟨text, List.mem_cons_self, held_classify found⟩, fun argument member => ?_⟩
        obtain ⟨holder, inTexts, part⟩ := induction rest argument member
        exact ⟨holder, List.mem_cons_of_mem _ inTexts, part⟩

end Argument

open Argument

namespace Cluster

theorem no_value_ofSwitch (switch : Switch) {slot : Slot} {value : List Char} :
    .slot slot value ∉ (ofSwitch switch).occurrences := by
  cases switch <;> simp [ofSwitch]

theorem values_ofShort {switch : Switch} {attached : List Char} {cluster : Cluster}
    (clustered : ofShort switch attached = .ok cluster) {slot : Slot} {value : List Char}
    (member : .slot slot value ∈ cluster.occurrences) : value.Sublist attached := by
  fun_induction ofShort switch attached generalizing cluster with
  | case1 owner attached =>
      cases clustered
      cases List.mem_singleton.mp member
      exact List.Sublist.refl _
  | case2 | case3 => cases clustered
  | case4 flag letter switch =>
      cases clustered
      rcases List.mem_cons.mp member with isFlag | member
      · cases isFlag
      · exact absurd member (no_value_ofSwitch switch)
  | case5 flag letter switch next rest _ induction =>
      obtain ⟨inner, found, rfl⟩ := map_eq_ok_iff.mp clustered
      rcases List.mem_cons.mp member with isFlag | member
      · cases isFlag
      · exact (induction found member).trans (List.sublist_cons_self letter _)

theorem values_ofLong {switch : Switch} {attached : List Char} {cluster : Cluster}
    (clustered : ofLong switch attached = .ok cluster) {slot : Slot} {value : List Char}
    (member : .slot slot value ∈ cluster.occurrences) : value.Sublist attached := by
  cases switch with
  | flag flag => cases clustered
  | slot owner =>
      cases clustered
      cases List.mem_singleton.mp member
      exact List.Sublist.refl _

theorem values_ofArgument {argument : Argument} {cluster : Cluster}
    (clustered : ofArgument argument = some (.ok cluster)) {slot : Slot}
    {value : List Char} (member : .slot slot value ∈ cluster.occurrences) :
    value.Sublist argument.held := by
  revert clustered
  fun_cases ofArgument argument with
  | case1 | case2 | case3 =>
      intro clustered
      cases clustered
  | case4 switch | case5 switch =>
      intro clustered
      cases clustered
      exact absurd member (no_value_ofSwitch switch)
  | case6 switch attached =>
      exact fun clustered => values_ofLong (Option.some.inj clustered) member
  | case7 switch attached =>
      exact fun clustered => values_ofShort (Option.some.inj clustered) member

end Cluster

def Options.SpelledBy (texts : List (List Char)) (options : Options) : Prop :=
  ∀ path, options.root = some (some path) ∨ options.output = some (some path) →
    ∃ value, PartOf texts value ∧ path = Path.ofChars value

theorem Options.SpelledBy.take {texts : List (List Char)} {options after : Options}
    (spelled : options.SpelledBy texts) {occurrence : Occurrence}
    (part : ∀ slot value, occurrence = .slot slot value → PartOf texts value)
    (taken : options.take? occurrence = some after) : after.SpelledBy texts := by
  have spells {slot : Slot} {value : List Char} (same : occurrence = .slot slot value)
      {path : Path} (found : some (Slot.path? value) = some (some path)) :
      ∃ value, PartOf texts value ∧ path = Path.ofChars value := by
    unfold Slot.path? at found
    split at found
    · cases found
    · cases found
      exact ⟨value, part slot value same, rfl⟩
  revert taken
  fun_cases Options.take? options occurrence with
  | case1 =>
      intro taken
      cases taken
  | case2 | case3 =>
      intro taken
      cases taken
      exact spelled
  | case4 value =>
      intro taken
      cases taken
      rintro path (root | output)
      · exact spells rfl root
      · exact spelled path (Or.inr output)
  | case5 value =>
      intro taken
      cases taken
      rintro path (root | output)
      · exact spelled path (Or.inl root)
      · exact spells rfl output

namespace Command

variable {texts : List (List Char)} {options final : Options}

theorem taking_eq_run (spelled : options.SpelledBy texts) {rest : Options → Command}
    {occurrences : List Occurrence}
    (parts : ∀ slot value, .slot slot value ∈ occurrences → PartOf texts value)
    (runs : taking options rest occurrences = .run final) :
    ∃ after, Options.SpelledBy texts after ∧ rest after = .run final := by
  induction occurrences generalizing options with
  | nil => exact ⟨options, spelled, runs⟩
  | cons occurrence occurrences induction =>
      rw [taking] at runs
      split at runs
      · cases runs
      · rename_i next taken
        refine induction (spelled.take (fun slot value same => ?_) taken) ?_ runs
        · exact parts slot value (same ▸ List.mem_cons_self)
        · exact fun slot value member => parts slot value (List.mem_cons_of_mem _ member)

theorem spelledBy_ofArguments (spelled : options.SpelledBy texts)
    {strays : List (List Char)} {arguments : List Argument}
    (parts : ∀ argument ∈ arguments, PartOf texts argument.held)
    (runs : ofArguments options strays arguments = .run final) :
    final.SpelledBy texts := by
  induction options, strays, arguments using ofArguments.induct with
  | case1 options =>
      rw [ofArguments, if_pos rfl] at runs
      cases runs
      exact spelled
  | case2 options strays notEmpty =>
      rw [ofArguments, if_neg notEmpty] at runs
      cases runs
  | case3 options strays argument arguments noOption induction =>
      unfold ofArguments at runs
      simp only [noOption] at runs
      exact induction spelled (List.forall_mem_cons.mp parts).2 runs
  | case4 options strays argument arguments fault refused =>
      unfold ofArguments at runs
      simp only [refused] at runs
      cases runs
  | case5 options strays argument occurrences arguments found induction =>
      obtain ⟨part, parts⟩ := List.forall_mem_cons.mp parts
      unfold ofArguments at runs
      simp only [found] at runs
      obtain ⟨after, spelled, runs⟩ := taking_eq_run spelled (fun slot value member =>
        part.of_sublist (Cluster.values_ofArgument found member)) runs
      exact induction after spelled parts runs
  | case6 options strays argument occurrences slot value arguments found induction =>
      obtain ⟨part, partNext, parts⟩ :
          PartOf texts argument.held ∧ PartOf texts value ∧
            ∀ argument ∈ arguments, PartOf texts argument.held := by
        simpa only [List.forall_mem_cons, held] using parts
      unfold ofArguments at runs
      simp only [found] at runs
      have values : ∀ owner other, .slot owner other ∈ occurrences ++ [.slot slot value] →
          PartOf texts other := by
        intro owner other member
        rcases List.mem_append.mp member with member | member
        · exact part.of_sublist (Cluster.values_ofArgument found member)
        · cases List.mem_singleton.mp member
          exact partNext
      obtain ⟨after, spelled, runs⟩ := taking_eq_run spelled values runs
      exact induction after spelled parts runs
  | case7 options strays argument arguments occurrences slot found noValue =>
      unfold ofArguments at runs
      simp only [found] at runs
      cases runs

theorem spelledBy_ofTexts (runs : ofTexts texts = .run final) : final.SpelledBy texts := by
  unfold ofTexts at runs
  split at runs
  · cases runs
  · rename_i arguments classified
    have spelled : Options.SpelledBy texts .standard := by
      rintro path (root | output)
      · cases root
      · cases output
    exact spelledBy_ofArguments spelled (held_classifyAll classified) runs

end Command

end PalletTypes

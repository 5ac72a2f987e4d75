import PalletTypes.Options.Argument
import PalletTypes.Path
import PalletTypes.Text.Quoted

/-!
The options of a command line, taken in order. An option that takes a path finds
it in the text attached to it or in the next argument, if that one is plain.

The rules are those of `argparse` in its older releases, which take two dashes out
of the texts of every option before its value is made; newer ones leave them there
if they are attached.
-/

namespace PalletTypes

/-- What the options ask for. An option that takes a path may be given without
one. -/
structure Options where
  root : Option (Option Path)
  output : Option (Option Path)
  check : Bool
  verbose : Bool
deriving DecidableEq

def Options.standard : Options := ⟨none, none, false, false⟩

inductive Occurrence where
  | flag (flag : Flag)
  | slot (slot : Slot) (value : List Char)
deriving DecidableEq

/-- The path that a value spells. Two dashes are no value, even when they are
attached, as `argparse` had it before it began to keep them. -/
def Slot.path? (value : List Char) : Option Path :=
  if value = ['-', '-'] then none else some (Path.ofChars value)

/-- What the options ask for after one more; none when it asks for help. -/
def Options.take? (options : Options) : Occurrence → Option Options
  | .flag .help => none
  | .flag .check => some { options with check := true }
  | .flag .verbose => some { options with verbose := true }
  | .slot .root value => some { options with root := some (Slot.path? value) }
  | .slot .output value => some { options with output := some (Slot.path? value) }

/-- The options of one argument. One that takes a path may be left open, for the
next argument to give it. -/
structure Cluster where
  occurrences : List Occurrence
  waiting : Option Slot
deriving DecidableEq

namespace Cluster

def ofSwitch : Switch → Cluster
  | .flag flag => ⟨[.flag flag], none⟩
  | .slot slot => ⟨[], some slot⟩

def prepend (flag : Flag) (cluster : Cluster) : Cluster :=
  { cluster with occurrences := .flag flag :: cluster.occurrences }

def ofLong (switch : Switch) (attached : List Char) : Except UsageFault Cluster :=
  match switch with
  | .slot slot => .ok ⟨[.slot slot attached], none⟩
  | .flag flag => .error (.valueIgnored flag attached)

/-- An option spelled with one letter with text attached: its path, or the
letters of further options. -/
def ofShort : Switch → List Char → Except UsageFault Cluster
  | .slot slot, attached => .ok ⟨[.slot slot attached], none⟩
  | .flag flag, [] => .error (.valueIgnored flag [])
  | .flag flag, letter :: rest =>
      match Switch.ofLetter? letter, rest with
      | none, rest => .error (.valueIgnored flag (letter :: rest))
      | some switch, [] => .ok (prepend flag (ofSwitch switch))
      | some switch, next :: rest => (ofShort switch (next :: rest)).map (prepend flag)

def ofArgument : Argument → Option (Except UsageFault Cluster)
  | .plain _ | .separator | .unknown _ => none
  | .long switch none | .short switch none => some (.ok (ofSwitch switch))
  | .long switch (some attached) => some (ofLong switch attached)
  | .short switch (some attached) => some (ofShort switch attached)

end Cluster

inductive Command where
  | run (options : Options)
  | help
  | refused (fault : UsageFault)
deriving DecidableEq

namespace Command

/-- Takes the options that stand in an argument; without any that asks for help
goes on with the rest. -/
def taking (options : Options) (rest : Options → Command) : List Occurrence → Command
  | [] => rest options
  | occurrence :: occurrences =>
      match options.take? occurrence with
      | none => .help
      | some options => taking options rest occurrences

/-- Takes the arguments in order. Those that no option accounts for are kept and
refused at the end. -/
def ofArguments (options : Options) (strays : List (List Char)) :
    List Argument → Command
  | [] => if strays = [] then .run options else .refused (.unrecognized strays)
  | argument :: arguments =>
      match Cluster.ofArgument argument, arguments with
      | none, arguments =>
          ofArguments options (strays ++ [argument.text]) arguments
      | some (.error fault), _ => .refused fault
      | some (.ok ⟨occurrences, none⟩), arguments =>
          taking options (fun options => ofArguments options strays arguments)
            occurrences
      | some (.ok ⟨occurrences, some slot⟩), .plain value :: arguments =>
          taking options (fun options => ofArguments options strays arguments)
            (occurrences ++ [.slot slot value])
      | some (.ok ⟨_, some slot⟩), _ => .refused (.valueMissing slot)

def ofTexts (texts : List (List Char)) : Command :=
  match Argument.classifyAll texts with
  | .error fault => .refused fault
  | .ok arguments => ofArguments .standard [] arguments

end Command

end PalletTypes

import PalletTypes.EnvFile.Binding
import PalletTypes.EnvFile.Reference

/-!
Environment files: their lines, evaluated from top to bottom, and the variables
that they add to an environment. A variable that is there already, even an empty
one, is not changed.

Such files have no standard. This module and those of bindings and references
restate the `dotenv` loader, version 1.2, as `load_dotenv` goes about it when it
is given no arguments: nothing is overridden, references are replaced, and a
variable of its own keeps it from loading anything.
-/

namespace PalletTypes.EnvFile

def assign (environment : Environment) (earlier : Assigned) (binding : Binding) :
    Assigned :=
  Ordered.put binding.name (binding.value.map (resolve environment earlier)) earlier

def assigned (environment : Environment) (text : List Char) : Assigned :=
  (bindings text).foldl (assign environment) []

inductive Fault where
  | illegalName
  | nullByte
deriving DecidableEq

def define (environment : Environment) (name value : String) :
    Except Fault Environment :=
  if '\x00' ∈ name.toList ∨ '\x00' ∈ value.toList then .error .nullByte
  else if '=' ∈ name.toList then .error .illegalName
  else .ok (environment ++ [(name, value)])

/-- Adds the assigned variables that the environment does not have. -/
def extend (environment : Environment) : Assigned → Except Fault Environment
  | [] => .ok environment
  | (name, value) :: rest =>
      match environment.get? name, value with
      | none, some value => (define environment name value).bind (extend · rest)
      | _, _ => extend environment rest

def disablingVariable : String := "PYTHON_DOTENV_DISABLED"

def disablingWords : List String := ["1", "true", "t", "yes", "y"]

/-- A word without the case of its letters. The long s folds to the plain one. -/
def foldCase (word : String) : String :=
  word.map fun letter => if letter = 'ſ' then 's' else letter.toLower

def isDisabled (environment : Environment) : Bool :=
  match environment.get? disablingVariable with
  | some word => disablingWords.contains (foldCase word)
  | none => false

def load (environment : Environment) (text : List Char) : Except Fault Environment :=
  if isDisabled environment then .ok environment
  else extend environment (assigned environment text)

end PalletTypes.EnvFile

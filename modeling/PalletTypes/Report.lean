import PalletTypes.Failure

/-!
What the program tells while it works: events, each with a level, written one a
line.
-/

namespace PalletTypes

inductive Level where
  | debug
  | info
  | warning
  | error
deriving DecidableEq

def Level.name : Level → String
  | .debug => "DEBUG"
  | .info => "INFO"
  | .warning => "WARNING"
  | .error => "ERROR"

def Level.rank : Level → Nat
  | .debug => 0
  | .info => 1
  | .warning => 2
  | .error => 3

def programName : String := "aggregate_types.py"

inductive Event where
  | overridden (name : Text)
  | wrote (types pallets : Nat) (output : Path)
  | absent (output : Path)
  | outOfDate (output : Path)
  | upToDate (output : Path)
  | failed (failure : Failure)
deriving DecidableEq

namespace Event

def level : Event → Level
  | .overridden _ => .debug
  | .wrote _ _ _ | .upToDate _ => .info
  | .absent _ | .outOfDate _ => .warning
  | .failed _ => .error

def message : Event → String
  | .overridden name => "type " ++ name.quoted ++ " overridden"
  | .wrote types pallets output =>
      "✓ wrote " ++ toString types ++ " types from " ++ toString pallets ++
        " pallets → " ++ output.toString
  | .absent output => output.toString ++ " does not exist; run " ++ programName
  | .outOfDate output => output.toString ++ " is out of date; run " ++ programName
  | .upToDate output => "✓ " ++ output.toString ++ " is up to date"
  | .failed failure => "Failed to read/parse pallet types: " ++ failure.message

def line (event : Event) : String :=
  event.level.name ++ ": " ++ event.message

end Event

end PalletTypes

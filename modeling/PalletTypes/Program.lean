import PalletTypes.Aggregation
import PalletTypes.Options.Usage

/-!
The program: it reads its command line, aggregates or checks, and says how it
went on the two output streams and by its exit status.
-/

namespace PalletTypes

/-- A run of the program: its exit status, or the failure that it does not
report; what it wrote to the two streams; and the files after it. -/
structure Run where
  exit : Except Failure Nat
  output : String
  errors : String
  workspace : Workspace

namespace Run

/-- The lines that are shown: warnings and errors, or with `verbose` all from
`info` up. -/
def shown (verbose : Bool) (log : List Event) : String :=
  let least := if verbose then Level.info else Level.warning
  String.join ((log.filter fun event => decide (least.rank ≤ event.level.rank)).map
    fun event => event.line ++ "\n")

def ofOutcome (verbose : Bool) (outcome : Outcome Nat) : Run :=
  match outcome.result with
  | .ok status => ⟨.ok status, "", shown verbose outcome.log, outcome.workspace⟩
  | .error failure =>
      if failure.isReported then
        ⟨.ok 1, "", shown verbose (outcome.log ++ [.failed failure]),
          outcome.workspace⟩
      else ⟨.error failure, "", shown verbose outcome.log, outcome.workspace⟩

end Run

def Outcome.mapResult {α β : Type} (f : α → β) (outcome : Outcome α) : Outcome β :=
  ⟨outcome.result.map f, outcome.log, outcome.workspace⟩

def Options.request (options : Options) (seeds : Seeds) : Request :=
  ⟨seeds, options.root.join, standardPallets, options.output.join⟩

namespace Workspace

def perform (workspace : Workspace) (site : Site) (seeds : Seeds)
    (options : Options) : Outcome Nat :=
  let request := options.request seeds
  if options.check then
    (workspace.check site request).mapResult fun current => if current then 0 else 1
  else (workspace.aggregate site request).mapResult fun _ => 0

def run (workspace : Workspace) (site : Site) (seeds : Seeds)
    (arguments : List String) : Run :=
  match Command.ofTexts (arguments.map String.toList) with
  | .help => ⟨.ok 0, helpText, "", workspace⟩
  | .refused fault => ⟨.ok 2, "", fault.report, workspace⟩
  | .run options => .ofOutcome options.verbose
      (workspace.perform site seeds options)

end Workspace

end PalletTypes

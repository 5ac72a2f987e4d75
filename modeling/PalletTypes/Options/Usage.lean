import PalletTypes.Options
import PalletTypes.Report

/-!
What the program says about its command line.
-/

namespace PalletTypes

def usageLine : String :=
  "usage: " ++ programName ++ " [-h] [--root ROOT] [-o OUTPUT] [--check] [-v]\n"

def helpText : String :=
  usageLine ++
  "\n" ++
  "Merge every pallet's types.json into a single types.json.\n" ++
  "\n" ++
  "options:\n" ++
  "  -h, --help            show this help message and exit\n" ++
  "  --root ROOT           repository root (default: $TYPES_ROOT or the directory\n" ++
  "                        of this script)\n" ++
  "  -o OUTPUT, --output OUTPUT\n" ++
  "                        output file (default: <root>/types.json)\n" ++
  "  --check               do not write; exit 1 if the output is missing or stale\n" ++
  "  -v, --verbose\n"

def UsageFault.message : UsageFault → String
  | .ambiguous text matching =>
      "ambiguous option: " ++ String.ofList text ++ " could match " ++
        ", ".intercalate (matching.map Switch.longName)
  | .valueMissing slot =>
      "argument " ++ (Switch.slot slot).displayName ++ ": expected one argument"
  | .valueIgnored flag value =>
      "argument " ++ (Switch.flag flag).displayName ++
        ": ignored explicit argument " ++ (Text.ofChars value).quoted
  | .unrecognized texts =>
      "unrecognized arguments: " ++ " ".intercalate (texts.map String.ofList)

def UsageFault.report (fault : UsageFault) : String :=
  usageLine ++ programName ++ ": error: " ++ fault.message ++ "\n"

end PalletTypes

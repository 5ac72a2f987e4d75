import PalletTypes.Decimal.Shortest
import PalletTypes.FileTree.Access
import PalletTypes.Json.Fault
import PalletTypes.Text.Quoted
import PalletTypes.Text.Utf8

/-!
Why aggregation fails, and the wording.
-/

namespace PalletTypes

inductive Failure where
  | denied (denial : Denial) (path : Path)
  | nullByte
  | notUtf8 (path : Path) (fault : Utf8.Fault)
  | malformed (path : Path) (complaint : Json.Complaint) (position : Json.Position)
  | bareWord (path : Path) (kind : NonFinite)
  | notObject (path : Path) (kind : String)
  | unencodable (run : Utf8.SurrogateRun)
  | longInteger (digits : Nat)
  | notFinite (kind : NonFinite)
  | deepNesting
  | homeUnknown
  | illegalVariable
deriving DecidableEq

def NonFinite.shortName : NonFinite → String
  | .notANumber => "nan"
  | .infinity => "inf"
  | .negativeInfinity => "-inf"

namespace Failure

def ofAccess : AccessFault → Failure
  | .denied denial path => .denied denial path
  | .nullByte => .nullByte
  | .deepNesting => .deepNesting

def message : Failure → String
  | .denied denial path =>
      "[Errno " ++ toString denial.number ++ "] " ++ denial.message ++ ": " ++
        (Text.ofChars path.toChars).quoted
  | .nullByte => "embedded null byte"
  | .notUtf8 path fault => path.toString ++ ": not UTF-8 (" ++ fault.message ++ ")"
  | .malformed path complaint position =>
      path.toString ++ ": invalid JSON (" ++ complaint.message ++ ": " ++
        position.message ++ ")"
  | .bareWord path kind =>
      path.toString ++ ": invalid JSON (bare " ++ kind.word ++ " is not allowed)"
  | .notObject path kind =>
      path.toString ++ ": expected a JSON object, got " ++ kind
  | .unencodable run =>
      "aggregated types cannot be written as UTF-8 (" ++ run.message ++ ")"
  | .longInteger digits =>
      "Exceeds the limit (4300 digits) for integer string conversion: value has " ++
        toString digits ++ " digits; use sys.set_int_max_str_digits() to increase " ++
        "the limit"
  | .notFinite kind =>
      "Out of range float values are not JSON compliant: " ++ kind.shortName
  | .deepNesting => "nested too deeply"
  | .homeUnknown => "Could not determine home directory."
  | .illegalVariable => "illegal environment variable name"

/-- Whether the program reports the failure and ends in good order. It answers
for files that cannot be opened and for types that cannot be read or written,
and for nothing else. -/
def isReported : Failure → Bool
  | .denied _ _ | .notUtf8 _ _ | .malformed _ _ _ | .bareWord _ _
  | .notObject _ _ | .unencodable _ => true
  | .nullByte | .longInteger _ | .notFinite _ | .deepNesting | .homeUnknown
  | .illegalVariable => false

end Failure

end PalletTypes

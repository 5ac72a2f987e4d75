import PalletTypes.Ordered

/-!
The variables of an environment.
-/

namespace PalletTypes

abbrev Environment := List (String × String)

def Environment.get? (environment : Environment) (name : String) : Option String :=
  Ordered.lookup? name environment

end PalletTypes

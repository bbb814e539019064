/-!
# Version
-/

namespace PrintPath

def version : String :=
  "0.1.0"

end PrintPath

/-!
# Version
-/

namespace TokenScan

/-- The version of the language and of the record format. -/
def version : String := "0.1.0"

end TokenScan

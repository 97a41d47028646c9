/-!
# The version
-/

namespace Approval

def version : String := "0.1.0"

end Approval

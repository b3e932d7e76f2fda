/-!
# What is logged

Log lines are filtered by their origin: those of the service itself and those of its HTTP layer pass
from the configured level on.
-/

namespace Gatehouse

/-- The filter for a level. -/
def logFilter (level : String) : String := "keyhold=" ++ level ++ ",tower_http=" ++ level

end Gatehouse

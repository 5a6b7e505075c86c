import Washing.Applications.Job
import Washing.Inventory.Job
import Washing.Metrics.Daily
import Washing.Metrics.Job

/-!
# Failed jobs

Whatever raises in the `try` block of a job, by itself or because something outside fails, is raised again by the job,
and the committed rows are those before it but for the bookkeeping of one row.
-/

namespace Washing

open Job

/-- An exception from outside. -/
def connectionLost : Exc := ⟨.other "OperationalError", "server closed the connection unexpectedly"⟩

/-- The connection is lost at one step. -/
def lostAt {W : Type} (n : Nat) (w : W) : Faults W := fun k => if k = n then some (connectionLost, w) else none

end Washing

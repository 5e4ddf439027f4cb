import RunMetrics.Shelf
import RunMetrics.Store.View

/-!
Exporting a run: its histories, as the store shows them, become a snapshot on a shelf.
-/

set_option autoImplicit false

namespace RunMetrics.Store

variable {ρ σ : Type} [Roster ρ] [Journal σ]

/-- Writes a snapshot of all histories of a run; the answer is how many rows it has. -/
def exportRun (store : Store ρ σ) (run : String) (shelf : Shelf) (file : String) :
    Except Failure (Nat × Shelf) := do
  let histories ← store.histories run
  shelf.writeSnapshot file histories

end RunMetrics.Store

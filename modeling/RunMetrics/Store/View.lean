import RunMetrics.Record.Basic
import RunMetrics.Store.Basic

/-!
What a store shows. Every view of a run needs the run to be registered; metrics without samples are
not shown.
-/

set_option autoImplicit false

namespace RunMetrics.Store

open Record (ProjectionRow)

variable {ρ σ : Type} [Roster ρ] [Journal σ]

/-- The slots of a run, in order of their keys. -/
def runSlots (store : Store ρ σ) (run : String) : List Slot :=
  (store.slots.filter fun series _ => series.run == run).values

/-- The summary of a metric, if it has samples. -/
def summary (store : Store ρ σ) (run key : String) : Except Failure (Option Summary) := do
  store.requireRun run
  .ok (store.slot ⟨run, key⟩).summary

/-- All samples of a metric; none if it is not there. -/
def history (store : Store ρ σ) (run key : String) : Except Failure History := do
  store.requireRun run
  .ok (store.slot ⟨run, key⟩).history

/-- History and summary of a metric. -/
def snapshot (store : Store ρ σ) (run key : String) :
    Except Failure (History × Option Summary) := do
  store.requireRun run
  .ok ((store.slot ⟨run, key⟩).history, (store.slot ⟨run, key⟩).summary)

/-- The histories of a run that have samples, in order of their keys. -/
def histories (store : Store ρ σ) (run : String) : Except Failure (List History) := do
  store.requireRun run
  .ok (((store.runSlots run).map Slot.history).filter fun h => !h.isEmpty)

/-- The keys of a run that have samples, in order. -/
def keys (store : Store ρ σ) (run : String) : Except Failure (List String) := do
  let histories ← store.histories run
  .ok (histories.map History.key)

/-- Projections of all metrics of a run, with its params and tags. -/
def overview (store : Store ρ σ) (run : String) : Except Failure Overview := do
  store.requireRun run
  let metrics := (store.runSlots run).foldl (fun o slot =>
    match slot.summary with
    | some summary => o.putSummary summary
    | none => o) Overview.empty
  .ok ((metrics.putParams (store.params.entries run).entries).putTags
    (store.tags.entries run).entries)

/-- The rows of the summary table of a run, by key and projection. -/
def rows (store : Store ρ σ) (run : String) : Except Failure (List ProjectionRow) := do
  store.requireRun run
  .ok ((store.runSlots run).flatMap fun slot =>
    match slot.summary with
    | some summary => ProjectionRow.ofSummary run summary
    | none => [])

/-- The metrics whose summary is not the one of their history. -/
def drifted (store : Store ρ σ) : List Series :=
  (store.slots.filter fun _ slot => slot.drifted).values.map fun slot =>
    ⟨slot.history.run, slot.history.key⟩

end RunMetrics.Store

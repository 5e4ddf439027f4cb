import RunMetrics.History
import RunMetrics.Snapshot.Column
import RunMetrics.Table

/-!
Snapshots of histories: a flat table with one row for each sample. Histories are flattened in order
into one batch. Rows are grouped back by run and key, batch after batch and row after row; a history is
started where its metric first appears, and every later row finds it by its place.
-/

set_option autoImplicit false

namespace RunMetrics.Snapshot

/-- A sample with the run that it belongs to. -/
structure Row where
  run : String
  sample : Sample
deriving DecidableEq

/-- The rows of histories, in order. -/
def rowsOf (histories : List History) : List Row :=
  histories.flatMap fun h => h.samples.map fun s => ⟨h.run, { s with key := h.key }⟩

/-- A table of rows, with one column for each field. -/
def Batch.ofRows (rows : List Row) : Batch where
  height := rows.length
  columns :=
    [⟨"run_id", .text (rows.map Row.run), false⟩,
     ⟨"metric_key", .text (rows.map fun r => r.sample.key), false⟩,
     ⟨"value", .double (rows.map fun r => r.sample.value), false⟩,
     ⟨"timestamp", .integer (rows.map fun r => r.sample.timestamp), false⟩,
     ⟨"step", .integer (rows.map fun r => r.sample.step), false⟩]
  even := by simp [Cells.height]

def Batch.ofHistories (histories : List History) : Batch := .ofRows (rowsOf histories)

/-- Rows put together from the cells of five columns. -/
def assemble : List String → List String → List Binary64 → List Int64 → List Int64 → List Row
  | run :: runs, key :: keys, value :: values, timestamp :: timestamps, step :: steps =>
    ⟨run, key, value, timestamp, step⟩ :: assemble runs keys values timestamps steps
  | _, _, _, _, _ => []

/-- The rows of a batch. Its five columns are looked up in order; the first that is missing or has
another type is named in the fault, also if there are no rows. -/
def Batch.rows (b : Batch) : Except SnapshotFault (List Row) := do
  let runs ← b.cells "run_id" Cells.texts?
  let keys ← b.cells "metric_key" Cells.texts?
  let values ← b.cells "value" Cells.doubles?
  let timestamps ← b.cells "timestamp" Cells.integers?
  let steps ← b.cells "step" Cells.integers?
  .ok (assemble runs keys values timestamps steps)

/-! ### Grouping -/

/-- The metric that a row belongs to. -/
def Row.series (row : Row) : Series := ⟨row.run, row.sample.key⟩

/-- Histories in the making, and for each metric that has one the place where it stands. -/
structure Groups where
  histories : List History
  places : Table Series Nat
  inside : ∀ series place, places.get? series = some place → place < histories.length

namespace Groups

def empty : Groups := ⟨[], Table.empty, nofun⟩

/-- Starts the history of a metric behind the others. -/
def start (g : Groups) (series : Series) : Groups where
  histories := g.histories ++ [History.empty series.run series.key]
  places := g.places.insert series g.histories.length
  inside other place found := by
    rw [Table.get?_insert] at found
    rw [List.length_append, List.length_singleton]
    split at found
    · cases found
      exact Nat.lt_succ_self _
    · exact Nat.lt_succ_of_lt (g.inside other place found)

/-- The place of a metric's history, which is started if there is none. -/
def locate (g : Groups) (series : Series) : (located : Groups) × Fin located.histories.length :=
  match found : g.places.get? series with
  | some place => ⟨g, place, g.inside series place found⟩
  | none => ⟨g.start series, g.histories.length, by simp [start]⟩

/-- Puts another history in a place. -/
def set (g : Groups) (place : Nat) (h : History) : Groups where
  histories := g.histories.set place h
  places := g.places
  inside := by simpa only [List.length_set] using g.inside

/-- Appends the sample of a row to the history of its metric. -/
def addRow (g : Groups) (row : Row) : Except Failure Groups := do
  let ⟨g, place⟩ := g.locate row.series
  let h ← g.histories[place].append row.sample
  .ok (g.set place h)

/-- Goes through the rows of a batch. -/
def addBatch (g : Groups) (b : Batch) : Except Failure Groups := do
  let rows ← b.rows.mapError .snapshot
  rows.foldlM addRow g

end Groups

/-- The histories of a table that comes in batches. -/
def histories (batches : List Batch) : Except Failure (List History) := do
  let g ← batches.foldlM Groups.addBatch .empty
  .ok g.histories

end RunMetrics.Snapshot

import RunMetrics.Failure

/-!
Batches of typed columns, all of one height: what a snapshot is cut into.
-/

set_option autoImplicit false

namespace RunMetrics.Snapshot

/-- The cells of a column. Of types that no snapshot uses only the name and the height are kept. -/
inductive Cells where
  | text (values : List String)
  | double (values : List Binary64)
  | integer (values : List Int64)
  | foreign (typeName : String) (height : Nat)
deriving DecidableEq

namespace Cells

def height : Cells → Nat
  | .text values => values.length
  | .double values => values.length
  | .integer values => values.length
  | .foreign _ height => height

/-- The name of the cells' type in the columnar format. -/
def typeName : Cells → String
  | .text _ => "Utf8"
  | .double _ => "Float64"
  | .integer _ => "Int64"
  | .foreign typeName _ => typeName

def texts? : Cells → Option (List String)
  | .text values => some values
  | _ => none

def doubles? : Cells → Option (List Binary64)
  | .double values => some values
  | _ => none

def integers? : Cells → Option (List Int64)
  | .integer values => some values
  | _ => none

end Cells

structure Column where
  name : String
  cells : Cells
  /-- Whether cells may be missing; in a snapshot none may. -/
  nullable : Bool := false
deriving DecidableEq

/-- Columns that all have the same height. -/
structure Batch where
  height : Nat
  columns : List Column
  even : ∀ c ∈ columns, c.cells.height = height

namespace Batch

/-- The batch of the given columns, if they have one height; without columns it has no rows. -/
def ofColumns? (columns : List Column) : Option Batch :=
  let height := ((columns.head?).map fun c => c.cells.height).getD 0
  if even : ∀ c ∈ columns, c.cells.height = height then some ⟨height, columns, even⟩ else none

/-- The cells of the first column of a name, if they have the type wanted. -/
def cells {α : Type} (b : Batch) (name : String) (typed : Cells → Option (List α)) :
    Except SnapshotFault (List α) :=
  match (b.columns.find? fun c => c.name = name).bind fun c => typed c.cells with
  | some values => .ok values
  | none => .error (.badColumn name)

end Batch

end RunMetrics.Snapshot

import RunMetrics.Snapshot.Rows
import RunMetrics.Store.Settings
import RunMetrics.Table

/-!
A shelf: files that hold texts or snapshots. What keeps a file from being made under a name is up to the
place where the shelf stands, and is no different after other files are made.
-/

set_option autoImplicit false

namespace RunMetrics

inductive Document where
  | text (content : String)
  | snapshot (batches : List Snapshot.Batch)

/-- Files under their names, and the message with which a file of a name is refused, if it is. -/
structure Shelf where
  files : Table String Document
  obstacle : String → Option String

namespace Shelf

/-- No files, in a folder that holds no other: a name with a slash lies in a folder that is not there. -/
def empty : Shelf :=
  ⟨Table.empty, fun name => if name.toList.contains '/' then some noSuchFile else none⟩

/-- Whether a file of this name can be made. -/
def reaches (shelf : Shelf) (name : String) : Bool := (shelf.obstacle name).isNone

/-- Puts a document under a name, instead of one that was there. -/
def write (shelf : Shelf) (name : String) (document : Document) : Except Failure Shelf :=
  match shelf.obstacle name with
  | none => .ok { shelf with files := shelf.files.insert name document }
  | some text => .error (.file text)

/-- Writes a snapshot of histories; the answer is how many rows it has. -/
def writeSnapshot (shelf : Shelf) (name : String) (histories : List History) :
    Except Failure (Nat × Shelf) := do
  let batch := Snapshot.Batch.ofHistories histories
  let shelf ← shelf.write name (.snapshot [batch])
  .ok (batch.height, shelf)

/-- The batches of a snapshot. -/
def readBatches (shelf : Shelf) (name : String) : Except Failure (List Snapshot.Batch) :=
  match shelf.files.get? name with
  | none => .error (.snapshot (.notOpened noSuchFile))
  | some (.text _) => .error (.snapshot .notParsed)
  | some (.snapshot batches) => .ok batches

def readHistories (shelf : Shelf) (name : String) : Except Failure (List History) := do
  let batches ← shelf.readBatches name
  Snapshot.histories batches

/-- The text of a file; a snapshot is not text. -/
def readText (shelf : Shelf) (name : String) : Except Failure String :=
  match shelf.files.get? name with
  | none => .error (.file noSuchFile)
  | some (.text content) => .ok content
  | some (.snapshot _) => .error (.file "stream did not contain valid UTF-8")

def readSettings (shelf : Shelf) (name : String) : Except Failure Settings := do
  let text ← shelf.readText name
  Settings.parse text

end Shelf

end RunMetrics

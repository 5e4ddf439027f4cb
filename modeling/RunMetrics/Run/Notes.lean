import RunMetrics.Table

/-!
Notes: text under a name, for each run. Params and tags are two sets of notes that never meet. The
last value written under a name stays.
-/

set_option autoImplicit false

namespace RunMetrics

/-- The notes of all runs. -/
structure Notes where
  runs : Table String (Table String String)
deriving DecidableEq, Inhabited

namespace Notes

def empty : Notes := ⟨Table.empty⟩

/-- The notes of a run, by name. -/
def entries (notes : Notes) (run : String) : Table String String :=
  (notes.runs.get? run).getD Table.empty

def set (notes : Notes) (run name text : String) : Notes :=
  ⟨notes.runs.insert run ((notes.entries run).insert name text)⟩

def get? (notes : Notes) (run name : String) : Option String := (notes.entries run).get? name

/-- How many runs have notes. -/
def size (notes : Notes) : Nat := notes.runs.size

def isEmpty (notes : Notes) : Bool := notes.runs.isEmpty

end Notes

end RunMetrics

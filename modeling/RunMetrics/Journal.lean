import RunMetrics.Sample
import RunMetrics.Table

/-!
Journals: where samples are kept outside a store. A store puts a sample into its journal before it
changes anything of its own, and may read back what the journal holds of one metric of a run.
-/

set_option autoImplicit false

namespace RunMetrics

/-- States of a journal. Both operations may change the state, whether they succeed or fail. -/
class Journal (σ : Type) where
  append : σ → (run : String) → Sample → Except Failure Unit × σ
  load : σ → (run key : String) → Except Failure (List Sample) × σ

/-- A journal that takes everything and keeps nothing. -/
inductive Silent where
  | mk
deriving DecidableEq

instance : Journal Silent := ⟨fun j _ _ => (.ok (), j), fun j _ _ => (.ok [], j)⟩

/-- A journal in memory, which holds so many samples at most. -/
structure Logbook where
  logs : Table Series (List Sample)
  held : Nat
  capacity : Option UInt64
deriving DecidableEq

namespace Logbook

def empty (capacity : Option UInt64) : Logbook := ⟨Table.empty, 0, capacity⟩

/-- How many samples it may hold; without a capacity, as many as 64 bits can count. -/
def limit (l : Logbook) : Nat :=
  match l.capacity with
  | some capacity => capacity.toNat
  | none => 0xffffffffffffffff

/-- The samples taken for a metric of a run, in order. -/
def log (l : Logbook) (series : Series) : List Sample := (l.logs.get? series).getD []

def size (l : Logbook) : Nat := l.held

def isEmpty (l : Logbook) : Bool := l.held == 0

/-- The metrics of runs that have samples, in order. -/
def series (l : Logbook) : List Series := l.logs.keys

/-- The failure of a logbook that is full. -/
def full (l : Logbook) (run key : String) : Failure :=
  .journal ("sink full (" ++ toString l.limit ++ " samples), cannot append '" ++ key ++
    "' for run " ++ run)

def append (l : Logbook) (run : String) (s : Sample) : Except Failure Unit × Logbook :=
  if l.held < l.limit then
    let series : Series := ⟨run, s.key⟩
    (.ok (), { l with logs := l.logs.insert series (l.log series ++ [s]), held := l.held + 1 })
  else (.error (l.full run s.key), l)

instance : Journal Logbook := ⟨append, fun l run key => (.ok (l.log ⟨run, key⟩), l)⟩

end Logbook

/-- A journal that follows a script: which of its appends fail, counted from 0 over its life, and
what loading answers whatever is asked for. It keeps no samples. -/
structure Scripted where
  refused : List Nat
  stock : List Sample
  loadFailure : Option String
  appends : Nat := 0
deriving DecidableEq

namespace Scripted

def append (j : Scripted) (_ : String) (_ : Sample) : Except Failure Unit × Scripted :=
  let next := { j with appends := j.appends + 1 }
  if j.appends ∈ j.refused then
    (.error (.journal ("scripted failure of append " ++ toString j.appends)), next)
  else (.ok (), next)

def load (j : Scripted) (_ _ : String) : Except Failure (List Sample) × Scripted :=
  match j.loadFailure with
  | some text => (.error (.journal text), j)
  | none => (.ok j.stock, j)

instance : Journal Scripted := ⟨append, load⟩

end Scripted

end RunMetrics

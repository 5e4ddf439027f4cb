import RunMetrics.Store.Call
import RunMetrics.Store.Export

/-!
A workspace: named stores beside a shelf. Rosters and journals have names of their own and may be
shared by stores. A store keeps the roster and the journal that it was made with, also after their
names are given to others.
-/

set_option autoImplicit false

namespace RunMetrics

/-- A roster of one of the kinds that can be made. -/
inductive AnyRoster where
  | writable (runs : RunSet)
  | frozen (roster : FrozenRoster)

namespace AnyRoster

def contains : AnyRoster → String → Bool
  | .writable runs, run => runs.contains run
  | .frozen roster, run => Roster.contains roster run

def register : AnyRoster → String → Bool × AnyRoster
  | .writable runs, run => ((runs.register run).1, .writable (runs.register run).2)
  | .frozen roster, run =>
    ((Roster.register roster run).1, .frozen (Roster.register roster run).2)

instance : Roster AnyRoster where
  contains := contains
  register := register

/-- How many runs there are, if that can be asked. -/
def size? : AnyRoster → Option Nat
  | .writable runs => some runs.size
  | .frozen _ => none

end AnyRoster

/-- A journal of one of the kinds that can be made. -/
inductive AnyJournal where
  | silent
  | logbook (l : Logbook)
  | scripted (j : Scripted)

namespace AnyJournal

def append (j : AnyJournal) (run : String) (s : Sample) : Except Failure Unit × AnyJournal :=
  match j with
  | .silent => (.ok (), .silent)
  | .logbook l => ((l.append run s).1, .logbook (l.append run s).2)
  | .scripted j => ((j.append run s).1, .scripted (j.append run s).2)

def load (j : AnyJournal) (run key : String) : Except Failure (List Sample) × AnyJournal :=
  match j with
  | .silent => (.ok [], .silent)
  | .logbook l => (.ok (l.log ⟨run, key⟩), .logbook l)
  | .scripted j => ((j.load run key).1, .scripted (j.load run key).2)

instance : Journal AnyJournal := ⟨append, load⟩

def logbook? : AnyJournal → Option Logbook
  | .logbook l => some l
  | _ => none

end AnyJournal

/-- Things with names; a thing stays after its name has been given to another. -/
structure Pool (α : Type) where
  things : List α
  names : Table String Nat

namespace Pool

variable {α : Type}

def empty : Pool α := ⟨[], Table.empty⟩

/-- A new thing without a name; the answer is its number. -/
def add (pool : Pool α) (thing : α) : Nat × Pool α :=
  (pool.things.length, { pool with things := pool.things ++ [thing] })

/-- A new thing under a name. -/
def define (pool : Pool α) (name : String) (thing : α) : Pool α :=
  let (number, pool) := pool.add thing
  { pool with names := pool.names.insert name number }

def number? (pool : Pool α) (name : String) : Option Nat := pool.names.get? name

def get? (pool : Pool α) (number : Nat) : Option α := pool.things[number]?

def set (pool : Pool α) (number : Nat) (thing : α) : Pool α :=
  { pool with things := pool.things.set number thing }

end Pool

/-- Stores hold the numbers of their rosters and journals. -/
structure Workspace where
  stores : Table String (Store Nat Nat)
  rosters : Pool AnyRoster
  journals : Pool AnyJournal
  shelf : Shelf

/-- What a new store is made of; an absent part takes its default. -/
structure StorePlan where
  settings : Settings := {}
  allowNegative : Option Bool := none
  expectedRuns : Option UInt64 := none
  roster : Option String := none
  journal : Option String := none

/-- Settings with the changes of a plan. -/
def StorePlan.finalSettings (plan : StorePlan) : Settings where
  allowNegative := plan.allowNegative.getD plan.settings.allowNegative
  expectedRuns := plan.expectedRuns.getD plan.settings.expectedRuns

namespace Workspace

def empty : Workspace := ⟨Table.empty, .empty, .empty, .empty⟩

/-- Makes a store. Without a roster it registers runs itself; without a journal samples are kept
nowhere else. Nothing is made if a roster or journal is not there. -/
def addStore (w : Workspace) (name : String) (plan : StorePlan) : Option Workspace := do
  let registration : Registration Nat ← match plan.roster with
    | none => some (.own .empty)
    | some roster => (w.rosters.number? roster).map .shared
  let (journal, journals) ← match plan.journal with
    | none => some (w.journals.add .silent)
    | some journal => (w.journals.number? journal).map fun number => (number, w.journals)
  some { w with
    journals
    stores := w.stores.insert name
      ⟨plan.finalSettings, registration, journal, Table.empty, Notes.empty, Notes.empty⟩ }

/-- A store with the states of its roster and its journal. -/
def assemble? (w : Workspace) (store : Store Nat Nat) : Option (Store AnyRoster AnyJournal) := do
  let registration : Registration AnyRoster ← match store.registration with
    | .own runs => some (.own runs)
    | .shared number => (w.rosters.get? number).map .shared
  let journal ← w.journals.get? store.journal
  some ⟨store.settings, registration, journal, store.slots, store.params, store.tags⟩

/-- Puts a store back, and the states of its roster and its journal where they are shared. -/
def putBack (w : Workspace) (name : String) (store : Store Nat Nat)
    (after : Store AnyRoster AnyJournal) : Workspace :=
  let (registration, rosters) := match store.registration, after.registration with
    | .own _, .own runs => (.own runs, w.rosters)
    | .shared number, .shared roster => (.shared number, w.rosters.set number roster)
    | kept, _ => (kept, w.rosters)
  { w with
    rosters
    journals := w.journals.set store.journal after.journal
    stores := w.stores.insert name
      { store with
        registration
        slots := after.slots
        params := after.params
        tags := after.tags } }

/-- The store of a name, as it stands. -/
def store? (w : Workspace) (name : String) : Option (Store AnyRoster AnyJournal) :=
  (w.stores.get? name).bind w.assemble?

/-- Performs a call on a store. There is no answer if the store is not there. -/
def call (w : Workspace) (name : String) (c : Store.Call) :
    Option (Except Failure Store.Reply × Workspace) := do
  let store ← w.stores.get? name
  let assembled ← w.assemble? store
  let (reply, after) := assembled.perform c
  some (reply, w.putBack name store after)

/-- Records a sample given as a record in JSON. -/
def recordText (w : Workspace) (name run text : String) :
    Option (Except Failure Store.Reply × Workspace) := do
  let store ← w.stores.get? name
  let sample := do
    let record ← Record.decode Record.SampleRecord.codec text
    record.toSample store.settings.allowNegative
  match sample with
  | .error f => some (.error f, w)
  | .ok s => w.call name (.record run s)

/-- Writes a snapshot of all histories of a run; the answer is how many rows it has. -/
def exportRun (w : Workspace) (store run file : String) : Option (Except Failure Nat × Workspace) := do
  let assembled ← w.store? store
  some <| match assembled.exportRun run w.shelf file with
    | .error f => (.error f, w)
    | .ok (rows, shelf) => (.ok rows, { w with shelf })

/-- Replays a snapshot into a store. -/
def importFile (w : Workspace) (store file : String) :
    Option (Except Failure Store.Reply × Workspace) :=
  w.call store (.importSnapshot (w.shelf.readBatches file))

/-- Appends a sample to a journal by its name. -/
def appendTo (w : Workspace) (journal run : String) (s : Sample) :
    Option (Except Failure Unit × Workspace) := do
  let number ← w.journals.number? journal
  let state ← w.journals.get? number
  let (outcome, after) := state.append run s
  some (outcome, { w with journals := w.journals.set number after })

/-- Loads from a journal by its name. -/
def loadFrom (w : Workspace) (journal run key : String) :
    Option (Except Failure (List Sample) × Workspace) := do
  let number ← w.journals.number? journal
  let state ← w.journals.get? number
  let (outcome, after) := state.load run key
  some (outcome, { w with journals := w.journals.set number after })

def journal? (w : Workspace) (name : String) : Option AnyJournal :=
  (w.journals.number? name).bind w.journals.get?

def roster? (w : Workspace) (name : String) : Option AnyRoster :=
  (w.rosters.number? name).bind w.rosters.get?

/-- Whether two stores show the same of a run; the first is asked first. -/
def sameOverview (w : Workspace) (store other run : String) : Option (Except Failure Bool) := do
  let a ← w.store? store
  let b ← w.store? other
  some do
    let left ← a.overview run
    let right ← b.overview run
    .ok (decide (left = right))

end Workspace

end RunMetrics

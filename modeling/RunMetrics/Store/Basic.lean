import RunMetrics.History
import RunMetrics.Journal
import RunMetrics.Run.Notes
import RunMetrics.Run.Roster
import RunMetrics.Store.Settings

/-!
The store: histories and summaries of all runs, with their params and tags. A sample enters in three
steps, any of which may refuse it: it must be valid, its run must be known, and the journal must take
it. Only then do its history and its summary change, both at once.
-/

set_option autoImplicit false

namespace RunMetrics

/-- Who registers runs: the store itself, or a roster kept elsewhere. -/
inductive Registration (ρ : Type) where
  | own (runs : RunSet)
  | shared (roster : ρ)

namespace Registration

variable {ρ : Type} [Roster ρ]

def contains (r : Registration ρ) (run : String) : Bool :=
  match r with
  | .own runs => runs.contains run
  | .shared roster => Roster.contains roster run

/-- The registration after it was asked for a run. -/
def asked (r : Registration ρ) (run : String) : Registration ρ :=
  match r with
  | .own runs => .own runs
  | .shared roster => .shared (Roster.asked roster run)

/-- Registers a run; the answer is whether it was new. -/
def register (r : Registration ρ) (run : String) : Bool × Registration ρ :=
  match r with
  | .own runs => ((runs.register run).1, .own (runs.register run).2)
  | .shared roster => ((Roster.register roster run).1, .shared (Roster.register roster run).2)

/-- Whether runs of replayed histories are taken in unseen. -/
def isOwn : Registration ρ → Bool
  | .own _ => true
  | .shared _ => false

/-- Takes in the run of a replayed history. A roster kept elsewhere is never written to. -/
def enrol (r : Registration ρ) (run : String) : Registration ρ :=
  match r with
  | .own runs => .own (runs.register run).2
  | .shared roster => .shared roster

/-- The registration after others have changed the roster that is kept elsewhere. -/
def moved (r : Registration ρ) (roster : ρ) : Registration ρ :=
  match r with
  | .own runs => .own runs
  | .shared _ => .shared roster

end Registration

/-- What is kept of one metric of a run. -/
structure Slot where
  history : History
  summary : Option Summary
deriving DecidableEq

namespace Slot

def empty (series : Series) : Slot := ⟨History.empty series.run series.key, none⟩

/-- Adds a sample to the history and to the summary. -/
def add (slot : Slot) (s : Sample) : Except Failure Slot := do
  let history ← slot.history.append s
  .ok ⟨history, some (Summary.extend slot.summary s)⟩

/-- Adds samples in order, up to the first that is refused. -/
def addAll (slot : Slot) : List Sample → Except Failure Unit × Slot
  | [] => (.ok (), slot)
  | s :: rest =>
    match slot.add s with
    | .ok next => next.addAll rest
    | .error f => (.error f, slot)

/-- Whether the summary is not the one of the history. -/
def drifted (slot : Slot) : Bool := decide (slot.history.summary? ≠ slot.summary)

end Slot

/-- A store over a roster and a journal, each given by its state. -/
structure Store (ρ σ : Type) where
  settings : Settings
  registration : Registration ρ
  journal : σ
  slots : Table Series Slot
  params : Notes
  tags : Notes

namespace Store

variable {ρ σ : Type} [Roster ρ] [Journal σ]

def empty (settings : Settings) (registration : Registration ρ) (journal : σ) : Store ρ σ :=
  ⟨settings, registration, journal, Table.empty, Notes.empty, Notes.empty⟩

/-- Registers a run; the answer is whether it was new. -/
def register (store : Store ρ σ) (run : String) : Bool × Store ρ σ :=
  ((store.registration.register run).1,
    { store with registration := (store.registration.register run).2 })

def knows (store : Store ρ σ) (run : String) : Bool := store.registration.contains run

def requireRun (store : Store ρ σ) (run : String) : Except Failure Unit :=
  if store.knows run then .ok () else .error (.unknownRun run)

/-- The store after its roster was asked for a run. -/
def asked (store : Store ρ σ) (run : String) : Store ρ σ :=
  { store with registration := store.registration.asked run }

/-- The slot of a metric of a run; an empty one if there is none. -/
def slot (store : Store ρ σ) (series : Series) : Slot :=
  (store.slots.get? series).getD (Slot.empty series)

def putSlot (store : Store ρ σ) (series : Series) (slot : Slot) : Store ρ σ :=
  { store with slots := store.slots.insert series slot }

/-- Makes a slot for a metric of a run unless there is one. -/
def openSlot (store : Store ρ σ) (series : Series) : Store ρ σ :=
  store.putSlot series (store.slot series)

/-- Removes a slot whose history is empty. Whoever else might hold the slot, waiting to put a sample into it,
need not be looked for, nor need it be made sure that it is still the slot that was opened: calls are made
one after another, so between opening and dropping nobody else has put a slot in its place, and once a call
has ended nobody holds one. -/
def dropIfEmpty (store : Store ρ σ) (series : Series) : Store ρ σ :=
  if (store.slot series).history.isEmpty then
    { store with slots := store.slots.erase series }
  else store

/-- Records a sample for a run. When the journal refuses it, a slot that was made for it goes. -/
def record (store : Store ρ σ) (run : String) (s : Sample) : Except Failure Unit × Store ρ σ :=
  match s.check store.settings.allowNegative with
  | .error f => (.error f, store)
  | .ok () =>
    match store.requireRun run with
    | .error f => (.error f, store.asked run)
    | .ok () =>
      let series : Series := ⟨run, s.key⟩
      let opened := (store.asked run).openSlot series
      match Journal.append opened.journal run s with
      | (.error f, journal) => (.error f, ({ opened with journal }).dropIfEmpty series)
      | (.ok (), journal) =>
        let kept := { opened with journal }
        match (kept.slot series).add s with
        | .error f => (.error f, kept)
        | .ok slot => (.ok (), kept.putSlot series slot)

/-- Records samples in order, up to the first that is refused; the answer is how many there were. -/
def recordAll (store : Store ρ σ) (run : String) : List Sample → Except Failure Nat × Store ρ σ
  | [] => (.ok 0, store)
  | s :: rest =>
    match store.record run s with
    | (.error f, store) => (.error f, store)
    | (.ok (), store) =>
      match store.recordAll run rest with
      | (.error f, store) => (.error f, store)
      | (.ok count, store) => (.ok (count + 1), store)

/-- Sets a param of a run. -/
def setParam (store : Store ρ σ) (run name text : String) : Except Failure Unit × Store ρ σ :=
  match store.requireRun run with
  | .error f => (.error f, store.asked run)
  | .ok () => (.ok (), { store.asked run with params := store.params.set run name text })

/-- Sets a tag of a run. -/
def setTag (store : Store ρ σ) (run name text : String) : Except Failure Unit × Store ρ σ :=
  match store.requireRun run with
  | .error f => (.error f, store.asked run)
  | .ok () => (.ok (), { store.asked run with tags := store.tags.set run name text })

end Store

end RunMetrics

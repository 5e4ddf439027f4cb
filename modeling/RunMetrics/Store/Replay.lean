import RunMetrics.Snapshot.Rows
import RunMetrics.Store.Basic

/-!
Replaying histories into a store: from hand, from its journal, or from a snapshot. Nothing is
replayed unless everything can be, and the journal is not written to.
-/

set_option autoImplicit false

namespace RunMetrics.Store

variable {ρ σ : Type} [Roster ρ] [Journal σ]

/-- Whether a history may be replayed: its samples are valid, and its run is known if somebody else
registers runs. -/
def checkReplay (store : Store ρ σ) (h : History) : Except Failure Unit × Store ρ σ :=
  match h.samples.forM fun s => s.check store.settings.allowNegative with
  | .error f => (.error f, store)
  | .ok () =>
    if store.registration.isOwn then (.ok (), store)
    else (store.requireRun h.run, store.asked h.run)

/-- Whether histories may be replayed, up to the first that may not. -/
def checkAll (store : Store ρ σ) : List History → Except Failure Unit × Store ρ σ
  | [] => (.ok (), store)
  | h :: rest =>
    match store.checkReplay h with
    | (.error f, store) => (.error f, store)
    | (.ok (), store) => store.checkAll rest

/-- Replays a history behind the samples that its metric has; the answer is its size. -/
def replay (store : Store ρ σ) (h : History) : Except Failure Nat × Store ρ σ :=
  match store.checkReplay h with
  | (.error f, store) => (.error f, store)
  | (.ok (), store) =>
    let series : Series := ⟨h.run, h.key⟩
    let opened :=
      ({ store with registration := store.registration.enrol h.run }).openSlot series
    let (outcome, slot) := (opened.slot series).addAll h.samples
    (outcome.map fun _ => h.size, opened.putSlot series slot)

/-- Replays what the journal holds of a metric. -/
def replayJournal (store : Store ρ σ) (run key : String) : Except Failure Nat × Store ρ σ :=
  let (loaded, journal) := Journal.load store.journal run key
  let store := { store with journal }
  match loaded with
  | .error f => (.error f, store)
  | .ok samples =>
    match History.ofSamples run key samples with
    | .error f => (.error f, store)
    | .ok h => store.replay h

/-- Replays histories in order, up to the first that is refused; the answer is their total size. -/
def replayAll (store : Store ρ σ) : List History → Except Failure Nat × Store ρ σ
  | [] => (.ok 0, store)
  | h :: rest =>
    match store.replay h with
    | (.error f, store) => (.error f, store)
    | (.ok count, store) =>
      match store.replayAll rest with
      | (.error f, store) => (.error f, store)
      | (.ok more, store) => (.ok (count + more), store)

/-- Replays the histories of a snapshot, if every one of them may be. -/
def importBatches (store : Store ρ σ) (batches : List Snapshot.Batch) :
    Except Failure Nat × Store ρ σ :=
  match Snapshot.histories batches with
  | .error f => (.error f, store)
  | .ok histories =>
    match store.checkAll histories with
    | (.error f, store) => (.error f, store)
    | (.ok (), store) => store.replayAll histories

/-- Replays what reading a snapshot gave; a snapshot that cannot be read changes nothing. -/
def importSnapshot (store : Store ρ σ) (read : Except Failure (List Snapshot.Batch)) :
    Except Failure Nat × Store ρ σ :=
  match read with
  | .error f => (.error f, store)
  | .ok batches => store.importBatches batches

end RunMetrics.Store

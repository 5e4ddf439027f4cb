import RunMetrics.Store.Replay
import RunMetrics.Store.View

/-!
Calls on a store as data, so that one can speak of sequences of them. Each call has a reply or a
failure; a failure does not end a sequence. Between calls others may change a roster that is kept
elsewhere.
-/

set_option autoImplicit false

namespace RunMetrics.Store

open Record (ProjectionRow)

inductive Call where
  | register (run : String)
  | knows (run : String)
  | record (run : String) (sample : Sample)
  | recordAll (run : String) (samples : List Sample)
  | setParam (run name text : String)
  | setTag (run name text : String)
  | replay (history : History)
  | replayJournal (run key : String)
  | importSnapshot (read : Except Failure (List Snapshot.Batch))
  | summary (run key : String)
  | history (run key : String)
  | snapshot (run key : String)
  | keys (run : String)
  | histories (run : String)
  | overview (run : String)
  | rows (run : String)
  | drifted

inductive Reply where
  | done
  | flag (answer : Bool)
  | count (n : Nat)
  | summary (summary : Option Summary)
  | history (history : History)
  | snapshot (history : History) (summary : Option Summary)
  | keys (keys : List String)
  | histories (histories : List History)
  | overview (overview : Overview)
  | rows (rows : List ProjectionRow)
  | series (series : List Series)
deriving DecidableEq

/-- What can happen to a store: a call, or a change of the roster that is kept elsewhere. -/
inductive Event (ρ : Type) where
  | call (call : Call)
  | moved (roster : ρ)

variable {ρ σ : Type} [Roster ρ] [Journal σ]

/-- The reply to a call and the store after it. Every view but the drift check asks for its run. -/
def perform (store : Store ρ σ) : Call → Except Failure Reply × Store ρ σ
  | .register run => (.ok (.flag (store.register run).1), (store.register run).2)
  | .knows run => (.ok (.flag (store.knows run)), store.asked run)
  | .record run s => ((store.record run s).1.map fun _ => .done, (store.record run s).2)
  | .recordAll run samples =>
    ((store.recordAll run samples).1.map .count, (store.recordAll run samples).2)
  | .setParam run name text =>
    ((store.setParam run name text).1.map fun _ => .done, (store.setParam run name text).2)
  | .setTag run name text =>
    ((store.setTag run name text).1.map fun _ => .done, (store.setTag run name text).2)
  | .replay h => ((store.replay h).1.map .count, (store.replay h).2)
  | .replayJournal run key =>
    ((store.replayJournal run key).1.map .count, (store.replayJournal run key).2)
  | .importSnapshot read =>
    ((store.importSnapshot read).1.map .count, (store.importSnapshot read).2)
  | .summary run key => ((store.summary run key).map .summary, store.asked run)
  | .history run key => ((store.history run key).map .history, store.asked run)
  | .snapshot run key =>
    ((store.snapshot run key).map fun both => .snapshot both.1 both.2, store.asked run)
  | .keys run => ((store.keys run).map .keys, store.asked run)
  | .histories run => ((store.histories run).map .histories, store.asked run)
  | .overview run => ((store.overview run).map .overview, store.asked run)
  | .rows run => ((store.rows run).map .rows, store.asked run)
  | .drifted => (.ok (.series store.drifted), store)

/-- The store after an event. -/
def step (store : Store ρ σ) : Event ρ → Store ρ σ
  | .call call => (store.perform call).2
  | .moved roster => { store with registration := store.registration.moved roster }

/-- The store after events in order. -/
def after (store : Store ρ σ) (events : List (Event ρ)) : Store ρ σ := events.foldl step store

/-- The replies to the calls among events, in order. -/
def replies (store : Store ρ σ) : List (Event ρ) → List (Except Failure Reply)
  | [] => []
  | .call call :: rest => (store.perform call).1 :: (store.perform call).2.replies rest
  | .moved roster :: rest => (store.step (.moved roster)).replies rest

end RunMetrics.Store

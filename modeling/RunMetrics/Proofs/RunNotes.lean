import RunMetrics.Proofs.StoreWrites
import RunMetrics.Store.Call

/-!
The notes of a run. Only setting a param or a tag of a known run changes notes, and only those of the
run and the kind that it is about; so the notes of a run are what has been set, in order.
-/

set_option autoImplicit false

namespace RunMetrics

/-- A text under a name, for a run. -/
structure Note where
  run : String
  name : String
  text : String
deriving DecidableEq

namespace Notes

theorem entries_set_self (notes : Notes) (run name text : String) :
    (notes.set run name text).entries run = (notes.entries run).insert name text := by
  rw [entries, set, Table.get?_insert_self, Option.getD_some]

theorem entries_set_of_ne (notes : Notes) {run other : String} (name text : String)
    (apart : other ≠ run) : (notes.set run name text).entries other = notes.entries other := by
  rw [entries, set, Table.get?_insert_of_ne _ _ apart, entries]

theorem entries_set (notes : Notes) (run owner name text : String) :
    (notes.set owner name text).entries run =
      (notes.entries run).insertAll (if owner = run then [(name, text)] else []) := by
  split
  · rename_i same
    subst same
    exact entries_set_self notes owner name text
  · rename_i apart
    exact entries_set_of_ne notes name text (Ne.symm apart)

/-- Notes after others have been set in order. -/
def setAll (notes : Notes) (written : List Note) : Notes :=
  written.foldl (fun notes n => notes.set n.run n.name n.text) notes

/-- The names and texts of the notes of a run. -/
def ofRun (written : List Note) (run : String) : List (String × String) :=
  (written.filter fun n => n.run = run).map fun n => (n.name, n.text)

theorem ofRun_nil (run : String) : ofRun [] run = [] := rfl

theorem ofRun_cons (n : Note) (rest : List Note) (run : String) :
    ofRun (n :: rest) run = (if n.run = run then [(n.name, n.text)] else []) ++ ofRun rest run := by
  by_cases here : n.run = run <;> simp [ofRun, here]

/-- Of the notes that are set a run shows its own, in order. -/
theorem entries_setAll (notes : Notes) (written : List Note) (run : String) :
    (notes.setAll written).entries run = (notes.entries run).insertAll (ofRun written run) := by
  induction written generalizing notes with
  | nil => rfl
  | cons n rest ih =>
    rw [ofRun_cons, Table.insertAll, List.foldl_append]
    refine (ih (notes.set n.run n.name n.text)).trans ?_
    rw [entries_set]
    rfl

/-- Notes of different names, or of different runs, may be set in either order. -/
theorem set_comm (notes : Notes) {run other name title : String} (text more : String)
    (apart : ¬ (run = other ∧ name = title)) :
    (notes.set run name text).set other title more =
      (notes.set other title more).set run name text := by
  by_cases same : run = other
  · subst same
    have names : name ≠ title := fun equal => apart ⟨rfl, equal⟩
    rw [set, entries_set_self, set, Table.insert_insert_self, Table.insert_comm _ _ _ names]
    rw [set, entries_set_self, set, Table.insert_insert_self]
  · rw [set, entries_set_of_ne _ _ _ (Ne.symm same), set, Table.insert_comm _ _ _ same]
    rw [set, entries_set_of_ne _ _ _ same, set]

end Notes

namespace Store

/-- The two sets of notes of a store. -/
inductive Notebook where
  | params
  | tags
deriving DecidableEq

variable {ρ : Type} [Roster ρ]

def notes {σ : Type} (store : Store ρ σ) : Notebook → Notes
  | .params => store.params
  | .tags => store.tags

/-! ### Calls that leave the notes alone -/

section Frame

variable {σ : Type} (store : Store ρ σ) (book : Notebook)

theorem notes_replay (h : History) : (store.replay h).2.notes book = store.notes book := by
  obtain ⟨registration, slots, same⟩ := replay_rest store h
  rw [same]
  cases book <;> rfl

theorem notes_importSnapshot (read : Except Failure (List Snapshot.Batch)) :
    (store.importSnapshot read).2.notes book = store.notes book := by
  obtain ⟨registration, slots, same⟩ := importSnapshot_rest store read
  rw [same]
  cases book <;> rfl

variable [Journal σ]

theorem notes_record (run : String) (s : Sample) :
    (store.record run s).2.notes book = store.notes book := by
  obtain ⟨runs, journal, slots, same⟩ := record_rest store run s
  rw [same]
  cases book <;> rfl

theorem notes_recordAll (run : String) (samples : List Sample) :
    (store.recordAll run samples).2.notes book = store.notes book := by
  obtain ⟨runs, journal, slots, same⟩ := recordAll_rest store run samples
  rw [same]
  cases book <;> rfl

theorem notes_replayJournal (run key : String) :
    (store.replayJournal run key).2.notes book = store.notes book := by
  apply replayJournal_preserves fun next => next.notes book = store.notes book
  · intro next journal same
    rw [← same]
    cases book <;> rfl
  · exact fun next h same => (notes_replay next book h).trans same
  · rfl

end Frame

/-! ### What is noted -/

/-- The note that a call sets in a book, if it is answered without a failure. -/
def noteSet (book : Notebook) : Call → Except Failure Reply → List Note
  | .setParam run name text, .ok _ => if book = .params then [⟨run, name, text⟩] else []
  | .setTag run name text, .ok _ => if book = .tags then [⟨run, name, text⟩] else []
  | _, _ => []

variable {σ : Type} [Journal σ]

/-- The notes of one kind that a call sets for a run. -/
def noted (store : Store ρ σ) (book : Notebook) (run : String) : Call → List (String × String)
  | .setParam owner name text =>
    if store.knows owner ∧ book = .params ∧ owner = run then [(name, text)] else []
  | .setTag owner name text =>
    if store.knows owner ∧ book = .tags ∧ owner = run then [(name, text)] else []
  | _ => []

/-- The notes that events set for a run, in order. -/
def notedDuring (store : Store ρ σ) (book : Notebook) (run : String) :
    List (Event ρ) → List (String × String)
  | [] => []
  | .call call :: rest =>
    store.noted book run call ++ (store.perform call).2.notedDuring book run rest
  | .moved roster :: rest => (store.step (.moved roster)).notedDuring book run rest

/-- A call leaves the notes alone but for the one that it sets. -/
theorem notes_perform (store : Store ρ σ) (book : Notebook) (call : Call) :
    (store.perform call).2.notes book =
      (store.notes book).setAll (noteSet book call (store.perform call).1) := by
  cases call with
  | setParam run name text =>
    simp only [perform, setParam, requireRun]
    cases store.knows run <;> cases book <;> rfl
  | setTag run name text =>
    simp only [perform, setTag, requireRun]
    cases store.knows run <;> cases book <;> rfl
  | record run s => exact notes_record store book run s
  | recordAll run samples => exact notes_recordAll store book run samples
  | replay h => exact notes_replay store book h
  | replayJournal run key => exact notes_replayJournal store book run key
  | importSnapshot read => exact notes_importSnapshot store book read
  | _ => cases book <;> rfl

theorem noted_eq (store : Store ρ σ) (book : Notebook) (run : String) (call : Call) :
    store.noted book run call = Notes.ofRun (noteSet book call (store.perform call).1) run := by
  cases call with
  | setParam owner name text =>
    simp only [noted, perform, setParam, requireRun]
    cases store.knows owner <;> cases book <;>
      simp [Except.map, noteSet, Notes.ofRun_cons, Notes.ofRun_nil]
  | setTag owner name text =>
    simp only [noted, perform, setTag, requireRun]
    cases store.knows owner <;> cases book <;>
      simp [Except.map, noteSet, Notes.ofRun_cons, Notes.ofRun_nil]
  | _ => rfl

theorem perform_notes (store : Store ρ σ) (book : Notebook) (run : String) (call : Call) :
    ((store.perform call).2.notes book).entries run =
      ((store.notes book).entries run).insertAll (store.noted book run call) := by
  rw [notes_perform, Notes.entries_setAll, noted_eq]

theorem after_notes (store : Store ρ σ) (book : Notebook) (run : String) (events : List (Event ρ)) :
    ((store.after events).notes book).entries run =
      ((store.notes book).entries run).insertAll (store.notedDuring book run events) := by
  induction events generalizing store with
  | nil => rfl
  | cons event rest ih =>
    cases event with
    | call call =>
      have others := ih (store.perform call).2
      rw [perform_notes store book run call] at others
      rw [notedDuring, Table.insertAll, List.foldl_append]
      exact others
    | moved roster =>
      have others := ih (store.step (.moved roster))
      rw [notedDuring]
      cases book <;> exact others

end Store

end RunMetrics

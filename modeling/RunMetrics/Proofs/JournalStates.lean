import RunMetrics.Journal
import RunMetrics.Proofs.HistoryRows
import RunMetrics.Proofs.TableLookup

/-!
States of journals: which operations leave them as they are, and what a logbook holds after it has
taken a sample.
-/

set_option autoImplicit false

namespace RunMetrics

open Snapshot (samplesOf)

/-- Refused appends and loads leave the journal as it was. -/
structure Journal.Unmoved (σ : Type) [Journal σ] : Prop where
  refused : ∀ (journal next : σ) (run : String) (s : Sample) (f : Failure),
    Journal.append journal run s = (.error f, next) → next = journal
  loaded : ∀ (journal : σ) (run key : String), (Journal.load journal run key).2 = journal

/-- The journal takes the samples, one after the other. -/
def Journal.Takes {σ : Type} [Journal σ] (journal : σ) (run : String) : List Sample → Prop
  | [] => True
  | s :: rest =>
    (Journal.append journal run s).1 = .ok () ∧ Takes (Journal.append journal run s).2 run rest

theorem Silent.takes (journal : Silent) (run : String) (samples : List Sample) :
    Journal.Takes journal run samples := by
  induction samples with
  | nil => trivial
  | cons s rest ih => exact ⟨rfl, ih⟩

theorem Silent.unmoved : Journal.Unmoved Silent where
  refused _ _ _ _ _ answer := by cases answer
  loaded _ _ _ := rfl

namespace Logbook

/-- Metrics without samples are not listed. -/
def Tight (l : Logbook) : Prop := ∀ series, l.logs.get? series ≠ some []

theorem empty_tight (capacity : Option UInt64) : (empty capacity).Tight := fun _ => nofun

theorem Tight.mem_series_iff {l : Logbook} (tight : l.Tight) (series : Series) :
    series ∈ l.series ↔ l.log series ≠ [] := by
  rw [Logbook.series, Table.mem_keys_iff, log]
  have listed := tight series
  cases found : l.logs.get? series with
  | none => simp
  | some samples =>
    rw [found] at listed
    simpa using listed

theorem append_of_full {l : Logbook} (full : ¬ l.held < l.limit) (run : String) (s : Sample) :
    l.append run s = (.error (l.full run s.key), l) := by
  rw [append, if_neg full]

theorem append_of_room {l : Logbook} (room : l.held < l.limit) (run : String) (s : Sample) :
    l.append run s = (.ok (), (l.append run s).2) := by
  rw [append, if_pos room]

theorem append_refused {l next : Logbook} {run : String} {s : Sample} {f : Failure}
    (refused : l.append run s = (.error f, next)) : next = l := by
  unfold append at refused
  split at refused
  · cases refused
  · exact (congrArg Prod.snd refused).symm

theorem append_taken {l next : Logbook} {run : String} {s : Sample}
    (taken : l.append run s = (.ok (), next)) :
    next.logs = l.logs.insert ⟨run, s.key⟩ (l.log ⟨run, s.key⟩ ++ [s]) := by
  unfold append at taken
  split at taken
  · exact (congrArg (fun outcome => outcome.2.logs) taken).symm
  · cases taken

/-- A sample that is taken goes behind those of its metric. -/
theorem log_of_taken {l next : Logbook} {run : String} {s : Sample}
    (taken : l.append run s = (.ok (), next)) (series : Series) :
    next.log series = l.log series ++ samplesOf series [⟨run, s⟩] := by
  have logs := append_taken taken
  by_cases same : series = ⟨run, s.key⟩
  · subst same
    rw [log, logs, Table.get?_insert_self, Option.getD_some]
    exact congrArg _ (Snapshot.samplesOf_singleton_self ⟨run, s⟩).symm
  · rw [log, logs, Table.get?_insert_of_ne _ _ same,
      Snapshot.samplesOf_singleton_of_ne ⟨run, s⟩ same, List.append_nil, log]

theorem Tight.of_taken {l next : Logbook} (tight : l.Tight) {run : String} {s : Sample}
    (taken : l.append run s = (.ok (), next)) : next.Tight := by
  intro series
  by_cases same : series = ⟨run, s.key⟩
  · subst same
    rw [append_taken taken, Table.get?_insert_self]
    simp
  · rw [append_taken taken, Table.get?_insert_of_ne _ _ same]
    exact tight series

theorem unmoved : Journal.Unmoved Logbook where
  refused _ _ _ _ _ answer := append_refused answer
  loaded _ _ _ := rfl

end Logbook

end RunMetrics

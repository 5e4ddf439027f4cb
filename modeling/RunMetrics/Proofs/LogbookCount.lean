import Mathlib.Algebra.BigOperators.Group.List.Lemmas
import Mathlib.Algebra.GroupWithZero.Nat
import RunMetrics.Proofs.JournalStates
import RunMetrics.Proofs.KeyOrder
import RunMetrics.Proofs.Sorting

/-!
The count of a logbook. Counter, capacity test and logs are updated apart from each other; along every
sequence of appends the counter is the number of samples taken, and each log holds those of its metric in
order. A logbook refuses a sample when the counter has come to the limit, and then stays as it is.
-/

set_option autoImplicit false

namespace RunMetrics.Logbook

open Snapshot (Row samplesOf)

/-- The logbook has taken the rows, one after the other. -/
inductive Took : Logbook → Logbook → List Row → Prop where
  | nil (l : Logbook) : Took l l []
  | cons {l middle last : Logbook} {run : String} {s : Sample} {rows : List Row}
    (taken : l.append run s = (.ok (), middle)) (rest : Took middle last rows) :
    Took l last (⟨run, s⟩ :: rows)

/-- The logbook is the one that has taken the rows since it was empty. -/
structure Counts (l : Logbook) (rows : List Row) : Prop where
  log : ∀ series, l.log series = samplesOf series rows
  held : l.held = rows.length
  within : l.held ≤ l.limit
  tight : l.Tight

theorem empty_counts (capacity : Option UInt64) : (empty capacity).Counts [] :=
  ⟨fun _ => rfl, rfl, Nat.zero_le _, empty_tight capacity⟩

theorem limit_lt (l : Logbook) : l.limit < 2 ^ 64 := by
  unfold limit
  split
  · rename_i capacity _
    exact capacity.toNat_lt
  · decide

variable {l next : Logbook} {rows : List Row}

theorem append_eq_ok {run : String} {s : Sample} (taken : l.append run s = (.ok (), next)) :
    l.held < l.limit ∧ next.held = l.held + 1 ∧ next.capacity = l.capacity := by
  unfold append at taken
  split at taken
  · rename_i room
    cases taken
    exact ⟨room, rfl, rfl⟩
  · cases taken

theorem limit_of_taken {run : String} {s : Sample} (taken : l.append run s = (.ok (), next)) :
    next.limit = l.limit := by
  rw [Logbook.limit, (append_eq_ok taken).2.2, Logbook.limit]

/-- Rows that are taken go behind the samples of their metrics, and each is counted. -/
theorem Took.log_eq (took : l.Took next rows) (series : Series) :
    next.log series = l.log series ++ samplesOf series rows := by
  induction took with
  | nil l => exact (List.append_nil _).symm
  | cons taken _ ih =>
    rw [ih, log_of_taken taken, List.append_assoc, ← Snapshot.samplesOf_append, List.singleton_append]

theorem Took.size_eq (took : l.Took next rows) : next.size = l.size + rows.length := by
  induction took with
  | nil l => rfl
  | cons taken _ ih =>
    have counted := (append_eq_ok taken).2.1
    rw [ih, size, counted, List.length_cons, size]
    omega

theorem Counts.take (counts : l.Counts rows) {run : String} {s : Sample}
    (taken : l.append run s = (.ok (), next)) : next.Counts (rows ++ [⟨run, s⟩]) := by
  obtain ⟨room, held, -⟩ := append_eq_ok taken
  refine ⟨fun series => ?_, ?_, ?_, counts.tight.of_taken taken⟩
  · rw [log_of_taken taken, counts.log, Snapshot.samplesOf_append]
  · rw [held, counts.held, List.length_append, List.length_singleton]
  · rw [held, limit_of_taken taken]
    exact room

theorem Counts.took {more : List Row} (counts : l.Counts rows) (took : l.Took next more) :
    next.Counts (rows ++ more) ∧ next.capacity = l.capacity := by
  induction took generalizing rows with
  | nil l => exact ⟨by rwa [List.append_nil], rfl⟩
  | cons taken rest ih =>
    obtain ⟨last, capacity⟩ := ih (counts.take taken)
    rw [List.append_assoc] at last
    exact ⟨last, capacity.trans (append_eq_ok taken).2.2⟩

/-- A sample is refused when the logbook holds as many as it may, and only then; nothing changes then. -/
theorem Counts.append_eq (counts : l.Counts rows) (run : String) (s : Sample) :
    l.append run s =
      if l.size = l.limit then (.error (l.full run s.key), l) else (.ok (), (l.append run s).2) := by
  have within := counts.within
  rw [size]
  by_cases full : l.held = l.limit
  · rw [if_pos full, append_of_full (by omega)]
  · rw [if_neg full]
    exact append_of_room (by omega) run s

/-- The metrics that are listed are those of the rows. -/
theorem Counts.mem_series_iff (counts : l.Counts rows) (series : Series) :
    series ∈ l.series ↔ series ∈ rows.map Row.series := by
  rw [counts.tight.mem_series_iff, counts.log, samplesOf, ne_eq, List.map_eq_nil_iff,
    List.filter_eq_nil_iff]
  simp

theorem length_samplesOf (series : Series) (rows : List Row) :
    (samplesOf series rows).length = (rows.map Row.series).count series := by
  rw [samplesOf, List.length_map, ← List.countP_eq_length_filter, List.count, List.countP_map]
  apply List.countP_congr
  intro row _
  simp

/-- The counter is the sum of the lengths of the logs. -/
theorem Counts.sum_length_log (counts : l.Counts rows) :
    (l.series.map fun series => (l.log series).length).sum = l.size := by
  -- The listed metrics are those of the rows, each once, and a log is as long as its metric is frequent.
  have listed : l.series.Perm (rows.map Row.series).dedup :=
    (List.perm_ext_iff_of_nodup (Table.nodup_keys l.logs) (List.nodup_dedup _)).2 fun series =>
      (counts.mem_series_iff series).trans List.mem_dedup.symm
  have lengths : (l.series.map fun series => (l.log series).length) =
      l.series.map fun series => (rows.map Row.series).count series := by
    apply List.map_congr_left
    intro series _
    rw [counts.log, length_samplesOf]
  calc (l.series.map fun series => (l.log series).length).sum
      = ((rows.map Row.series).dedup.map fun series => (rows.map Row.series).count series).sum := by
        rw [lengths, (listed.map _).sum_eq]
    _ = (rows.map Row.series).length := List.sum_map_count_dedup_eq_length _
    _ = l.size := by rw [List.length_map, size, counts.held]

/-- Metrics are listed in strict order of the bytes of the run, and of the key within a run. -/
theorem series_ascending (l : Logbook) :
    l.series.Pairwise fun a b => Text.bytes a.run < Text.bytes b.run ∨
      a.run = b.run ∧ Text.bytes a.key < Text.bytes b.key := by
  rw [series, Table.keys, List.pairwise_map]
  refine List.Pairwise.imp ?_ l.logs.increasing
  intro a b order
  have both : (compare a.1.run b.1.run).then (compare a.1.key b.1.key) = .lt := order
  rw [Ordering.then_eq_lt, Std.LawfulEqCmp.compare_eq_iff_eq] at both
  simpa only [← Text.compare_eq_lt_iff] using both

/-- Counter, capacity and logs are in step with the rows that the logbook has taken. -/
structure InStep (l : Logbook) (rows : List Row) : Prop where
  counted : l.size = rows.length
  total : (l.series.map fun series => (l.log series).length).sum = l.size
  within : l.size ≤ l.limit
  /-- The counter never wraps. -/
  limited : l.limit < 2 ^ 64
  /-- What is loaded of a metric is what was taken of it, in order. -/
  log : ∀ series, l.log series = samplesOf series rows
  ascending : l.series.Pairwise fun a b => Text.bytes a.run < Text.bytes b.run ∨
    a.run = b.run ∧ Text.bytes a.key < Text.bytes b.key
  listed : ∀ series, series ∈ l.series ↔ l.log series ≠ []
  /-- In whatever order the logs are met, sorting their metrics makes the same list. -/
  collected : ∀ logs : List (Series × List Sample), logs.Perm l.logs.entries →
    sortedBy compare (logs.map Prod.fst) = l.series
  /-- A sample is refused when the logbook is full, and only then; nothing changes then. -/
  refusal : ∀ run s, l.append run s =
    if l.size = l.limit then (.error (l.full run s.key), l) else (.ok (), (l.append run s).2)

theorem Counts.inStep (counts : l.Counts rows) : l.InStep rows where
  counted := counts.held
  total := counts.sum_length_log
  within := counts.within
  limited := l.limit_lt
  log := counts.log
  ascending := l.series_ascending
  listed := counts.tight.mem_series_iff
  collected := fun _ => l.logs.sortedBy_keys
  refusal := counts.append_eq

end RunMetrics.Logbook

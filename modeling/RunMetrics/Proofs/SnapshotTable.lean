import Mathlib.Algebra.GroupWithZero.Nat
import RunMetrics.Proofs.GroupingLoop
import RunMetrics.Shelf

/-!
Snapshots as tables. What is written of histories is the table of their rows; a file gives it back in
order, cut into batches anywhere. Grouping the rows gives one history for each metric, in order of first
appearance, with the samples of all histories of that metric put together.
-/

set_option autoImplicit false

namespace RunMetrics

namespace Snapshot

/-! ### Rows and batches -/

theorem assemble_map (rows : List Row) :
    assemble (rows.map Row.run) (rows.map fun r => r.sample.key) (rows.map fun r => r.sample.value)
      (rows.map fun r => r.sample.timestamp) (rows.map fun r => r.sample.step) = rows := by
  induction rows with
  | nil => rfl
  | cons row rest ih =>
    simp only [List.map_cons, assemble]
    rw [ih]

theorem rows_ofRows (rows : List Row) : (Batch.ofRows rows).rows = .ok rows := by
  have cells : (Batch.ofRows rows).rows = .ok
      (assemble (rows.map Row.run) (rows.map fun r => r.sample.key)
        (rows.map fun r => r.sample.value) (rows.map fun r => r.sample.timestamp)
        (rows.map fun r => r.sample.step)) := rfl
  rw [cells, assemble_map]

/-- The batches hold the rows of a table in order, wherever it has been cut. -/
def Holds (batches : List Batch) (rows : List Row) : Prop :=
  ∃ parts, batches.mapM Batch.rows = .ok parts ∧ parts.flatten = rows

theorem holds_ofHistories (histories : List History) :
    Holds [Batch.ofHistories histories] (rowsOf histories) := by
  refine ⟨[rowsOf histories], ?_, List.append_nil _⟩
  rw [List.mapM_cons, Batch.ofHistories, rows_ofRows]
  rfl

theorem Holds.eq {batches : List Batch} {rows more : List Row} (first : Holds batches rows)
    (second : Holds batches more) : rows = more := by
  obtain ⟨parts, read, rfl⟩ := first
  obtain ⟨others, again, rfl⟩ := second
  rw [read] at again
  cases again
  rfl

theorem Holds.histories_eq {batches : List Batch} {rows : List Row} (holds : Holds batches rows) :
    Snapshot.histories batches = .ok (group rows) := by
  obtain ⟨parts, read, rfl⟩ := holds
  exact histories_of_rows read

theorem length_rowsOf_eq_sum (histories : List History) :
    (rowsOf histories).length = (histories.map History.size).sum := by
  induction histories with
  | nil => rfl
  | cons h rest ih =>
    rw [rowsOf_cons, List.length_append, length_rowsOf, ih, List.map_cons, List.sum_cons]

/-! ### Order of first appearance -/

theorem eraseDups_concat {α : Type} [DecidableEq α] (items : List α) (item : α) :
    (items ++ [item]).eraseDups =
      if item ∈ items then items.eraseDups else items.eraseDups ++ [item] := by
  rw [List.eraseDups_append]
  by_cases seen : item ∈ items
  · simp [List.removeAll, seen]
  · simp [List.removeAll, seen, List.eraseDups_cons]

/-- Repeating an item at the end is the same as adding it once. -/
theorem eraseDups_append_replicate {α : Type} [DecidableEq α] (items : List α) (item : α)
    (more : Nat) :
    (items ++ List.replicate (more + 1) item).eraseDups = (items ++ [item]).eraseDups := by
  induction more with
  | zero => rfl
  | succ more ih =>
    rw [List.replicate_succ', ← List.append_assoc, eraseDups_concat, if_pos (by simp), ih]

theorem map_series_group (rows : List Row) :
    (group rows).map History.series = (rows.map Row.series).eraseDups := by
  induction rows using List.reverseRecOn with
  | nil => rfl
  | append_singleton rows row ih =>
    rw [group_concat, map_series_addRow, ih, List.map_append, List.map_singleton, eraseDups_concat]
    simp only [List.mem_eraseDups]

theorem mem_runs_group (rows : List Row) (run : String) :
    run ∈ (group rows).map History.run ↔ run ∈ rows.map Row.run := by
  have groups : (group rows).map History.run = ((group rows).map History.series).map Series.run := by
    rw [List.map_map]
    rfl
  have all : rows.map Row.run = (rows.map Row.series).map Series.run := by
    rw [List.map_map]
    rfl
  rw [groups, all, map_series_group, List.mem_map, List.mem_map]
  simp only [List.mem_eraseDups]

theorem map_series_rowsOf (h : History) :
    (rowsOf [h]).map Row.series = List.replicate h.size h.series := by
  rw [List.eq_replicate_iff, List.length_map, length_rowsOf]
  refine ⟨rfl, fun series member => ?_⟩
  obtain ⟨row, there, rfl⟩ := List.mem_map.1 member
  exact series_of_mem_rowsOf there

theorem rowsOf_append (first second : List History) :
    rowsOf (first ++ second) = rowsOf first ++ rowsOf second := by
  simp only [rowsOf, List.flatMap_append]

/-- Histories that are not empty appear in the order of their rows. -/
theorem eraseDups_series_rowsOf (histories : List History)
    (nonempty : ∀ h ∈ histories, h.samples ≠ []) :
    ((rowsOf histories).map Row.series).eraseDups = (histories.map History.series).eraseDups := by
  induction histories using List.reverseRecOn with
  | nil => rfl
  | append_singleton earlier h ih =>
    have before := ih fun g member => nonempty g (List.mem_append_left _ member)
    have some_held : h.samples ≠ [] := nonempty h (by simp)
    obtain ⟨more, size⟩ : ∃ more, h.size = more + 1 :=
      Nat.exists_eq_succ_of_ne_zero (Nat.ne_of_gt (List.length_pos_iff.2 some_held))
    have seen : h.series ∈ (rowsOf earlier).map Row.series ↔
        h.series ∈ earlier.map History.series := by
      rw [← List.mem_eraseDups, before, List.mem_eraseDups]
    rw [rowsOf_append, List.map_append, map_series_rowsOf, size, eraseDups_append_replicate,
      List.map_append, List.map_singleton, eraseDups_concat, eraseDups_concat, before]
    simp only [seen]

/-! ### Groups -/

/-- The metrics of histories in order of first appearance, each with all its samples in order. -/
def totals (histories : List History) : List (Series × List Sample) :=
  (histories.map History.series).eraseDups.map fun series =>
    (series, (histories.filter fun h => h.series = series).flatMap History.samples)

theorem samplesOf_rowsOf (series : Series) (histories : List History) :
    samplesOf series (rowsOf histories) =
      (histories.filter fun h => h.series = series).flatMap History.samples := by
  induction histories with
  | nil => rfl
  | cons h rest ih =>
    rw [rowsOf_cons, samplesOf_append, ih, List.filter_cons]
    by_cases here : h.series = series
    · subst here
      rw [samplesOf_eq_map fun row => series_of_mem_rowsOf, map_sample_rowsOf,
        if_pos (decide_eq_true rfl), List.flatMap_cons]
    · rw [samplesOf_eq_nil, List.nil_append, if_neg (by simpa using here)]
      exact fun row member there => here ((series_of_mem_rowsOf member).symm.trans there)

/-- Where no metric occurs twice, each history holds all samples of its metric. -/
theorem samplesOf_rowsOf_of_mem {histories : List History}
    (distinct : (histories.map History.series).Nodup) {h : History} (member : h ∈ histories) :
    samplesOf h.series (rowsOf histories) = h.samples := by
  induction histories with
  | nil => cases member
  | cons head rest ih =>
    rw [List.map_cons, List.nodup_cons] at distinct
    rw [rowsOf_cons, samplesOf_append]
    rcases List.mem_cons.1 member with rfl | later
    · rw [samplesOf_rowsOf_of_notMem distinct.1, List.append_nil,
        samplesOf_eq_map fun row => series_of_mem_rowsOf, map_sample_rowsOf]
    · rw [ih distinct.2 later, samplesOf_eq_nil, List.nil_append]
      intro row there same
      rw [series_of_mem_rowsOf there] at same
      exact distinct.1 (same ▸ List.mem_map_of_mem later)

theorem samples_of_mem_group {rows : List Row} {g : History} (member : g ∈ group rows) :
    g.samples = samplesOf g.series rows := by
  rw [← samplesOf_rowsOf_of_mem (nodup_group rows) member, samplesOf_group]

/-- Rows of histories are grouped into one history for each metric. -/
theorem group_rowsOf (histories : List History) (nonempty : ∀ h ∈ histories, h.samples ≠ []) :
    (group (rowsOf histories)).map (fun g => (g.series, g.samples)) = totals histories := by
  have order : (group (rowsOf histories)).map History.series =
      (histories.map History.series).eraseDups := by
    rw [map_series_group, eraseDups_series_rowsOf histories nonempty]
  rw [totals, ← order, List.map_map]
  apply List.map_congr_left
  intro g member
  rw [Function.comp_apply, samples_of_mem_group member, samplesOf_rowsOf]

end Snapshot

namespace Shelf

open Snapshot (Batch Holds rowsOf)

/-- What reading a file may give: the table in it, cut into batches of any sizes. -/
def Gives (shelf : Shelf) (file : String) (batches : List Batch) : Prop :=
  ∃ written rows, shelf.readBatches file = .ok written ∧ Holds written rows ∧ Holds batches rows

/-- A file that can be made gives the rows of the histories written to it. -/
theorem writeSnapshot_of_reaches (shelf : Shelf) {file : String}
    (reaches : shelf.reaches file = true) (histories : List History) :
    ∃ last, shelf.writeSnapshot file histories = .ok ((histories.map History.size).sum, last) ∧
      last.readBatches file = .ok [Batch.ofHistories histories] ∧
      ∀ batches, last.Gives file batches ↔ Holds batches (rowsOf histories) := by
  let batch := Batch.ofHistories histories
  let last : Shelf := { shelf with files := shelf.files.insert file (.snapshot [batch]) }
  have read : last.readBatches file = .ok [batch] := by
    have found : last.files.get? file = some (.snapshot [batch]) := by
      rw [Table.get?_insert, if_pos Std.ReflCmp.compare_self]
    rw [readBatches, found]
  refine ⟨last, ?_, read, fun batches => ⟨?_, fun holds => ?_⟩⟩
  · rw [← Snapshot.length_rowsOf_eq_sum]
    have free : shelf.obstacle file = none := Option.isNone_iff_eq_none.1 reaches
    simp only [writeSnapshot, write, free]
    rfl
  · rintro ⟨written, rows, again, first, second⟩
    rw [read] at again
    cases again
    rw [first.eq (Snapshot.holds_ofHistories histories)] at second
    exact second
  · exact ⟨[batch], rowsOf histories, read, Snapshot.holds_ofHistories histories, holds⟩

end Shelf

end RunMetrics

import Mathlib.Data.List.Induction
import RunMetrics.Snapshot.Rows

/-!
Histories and rows. A history is determined by its run, its key and its samples, and its rows are
those samples with the run beside them. Rows that are grouped into histories keep, for each metric,
their samples in order, and no metric has two groups.
-/

set_option autoImplicit false

namespace RunMetrics

namespace History

/-- The metric of a history. -/
def series (h : History) : Series := ⟨h.run, h.key⟩

theorem eq_of_samples_eq {g h : History} (run : g.run = h.run) (key : g.key = h.key)
    (samples : g.samples = h.samples) : g = h := by
  obtain ⟨_, _, _, _⟩ := g
  obtain ⟨_, _, _, _⟩ := h
  cases run
  cases key
  cases samples
  rfl

@[simp] theorem push_series (h : History) (s : Sample) (same : s.key = h.key) :
    (h.push s same).series = h.series := rfl

theorem append_of_key_eq (h : History) {s : Sample} (same : s.key = h.key) :
    h.append s = .ok (h.push s same) := by
  simp only [append, same, ↓reduceDIte]

theorem append_of_key_ne (h : History) {s : Sample} (foreign : s.key ≠ h.key) :
    h.append s = .error (.refused (.foreignKey s.key h.key)) := by
  simp only [append, foreign, ↓reduceDIte]

theorem foldlM_append_eq_ok {start last : History} {samples : List Sample}
    (built : samples.foldlM append start = .ok last) :
    last.run = start.run ∧ last.key = start.key ∧ last.samples = start.samples ++ samples := by
  induction samples generalizing start with
  | nil =>
    cases built
    exact ⟨rfl, rfl, (List.append_nil _).symm⟩
  | cons s rest ih =>
    rw [List.foldlM_cons] at built
    by_cases same : s.key = start.key
    · rw [append_of_key_eq start same] at built
      change rest.foldlM append (start.push s same) = .ok last at built
      obtain ⟨run, key, all⟩ := ih built
      refine ⟨run, key, ?_⟩
      rw [all, push, List.append_assoc, List.singleton_append]
    · rw [append_of_key_ne start same] at built
      cases built

theorem ofSamples_eq_ok {run key : String} {samples : List Sample} {h : History}
    (built : ofSamples run key samples = .ok h) :
    h.run = run ∧ h.key = key ∧ h.samples = samples :=
  foldlM_append_eq_ok built

/-- Samples of one key always make a history. -/
theorem foldlM_append_of_keyed (start : History) (samples : List Sample)
    (keyed : ∀ s ∈ samples, s.key = start.key) :
    ∃ last, samples.foldlM append start = .ok last := by
  induction samples generalizing start with
  | nil => exact ⟨start, rfl⟩
  | cons s rest ih =>
    have same := keyed s List.mem_cons_self
    obtain ⟨last, built⟩ :=
      ih (start.push s same) fun t member => keyed t (List.mem_cons_of_mem _ member)
    refine ⟨last, ?_⟩
    rw [List.foldlM_cons, append_of_key_eq start same]
    exact built

theorem ofSamples_of_keyed (run key : String) (samples : List Sample)
    (keyed : ∀ s ∈ samples, s.key = key) : ∃ h, ofSamples run key samples = .ok h :=
  foldlM_append_of_keyed (empty run key) samples keyed

end History

namespace Snapshot

/-- The samples of a metric among rows, in order. -/
def samplesOf (series : Series) (rows : List Row) : List Sample :=
  (rows.filter fun row => row.series = series).map Row.sample

@[simp] theorem samplesOf_nil (series : Series) : samplesOf series [] = [] := rfl

theorem samplesOf_append (series : Series) (first second : List Row) :
    samplesOf series (first ++ second) = samplesOf series first ++ samplesOf series second := by
  simp only [samplesOf, List.filter_append, List.map_append]

theorem isPrefix_samplesOf (series : Series) {part rows : List Row} (start : part <+: rows) :
    samplesOf series part <+: samplesOf series rows :=
  (start.filter _).map _

theorem samplesOf_eq_map {series : Series} {rows : List Row}
    (inside : ∀ row ∈ rows, row.series = series) : samplesOf series rows = rows.map Row.sample := by
  rw [samplesOf, List.filter_eq_self.2]
  exact fun row member => decide_eq_true (inside row member)

theorem mem_of_mem_samplesOf {series : Series} {rows : List Row} {s : Sample}
    (member : s ∈ samplesOf series rows) : ∃ row ∈ rows, row.sample = s := by
  obtain ⟨row, kept, same⟩ := List.mem_map.1 member
  exact ⟨row, (List.mem_filter.1 kept).1, same⟩

theorem samplesOf_eq_nil {series : Series} {rows : List Row}
    (outside : ∀ row ∈ rows, row.series ≠ series) : samplesOf series rows = [] := by
  rw [samplesOf, List.filter_eq_nil_iff.2, List.map_nil]
  intro row member
  simpa only [decide_eq_true_eq] using outside row member

theorem samplesOf_ne_nil_iff {series : Series} {rows : List Row} :
    samplesOf series rows ≠ [] ↔ ∃ row ∈ rows, row.series = series := by
  simp only [samplesOf, ne_eq, List.map_eq_nil_iff, List.filter_eq_nil_iff, decide_eq_true_eq,
    not_forall, not_not, exists_prop]

theorem samplesOf_singleton_self (row : Row) : samplesOf row.series [row] = [row.sample] :=
  samplesOf_eq_map (by simp)

theorem samplesOf_singleton_of_ne {series : Series} (row : Row) (apart : series ≠ row.series) :
    samplesOf series [row] = [] := by
  apply samplesOf_eq_nil
  intro other member same
  rw [List.mem_singleton.1 member] at same
  exact apart same.symm

/-! ### Rows of histories -/

theorem rowsOf_cons (h : History) (rest : List History) :
    rowsOf (h :: rest) = rowsOf [h] ++ rowsOf rest := by
  simp only [rowsOf, List.flatMap_cons, List.flatMap_nil, List.append_nil]

theorem rowsOf_singleton (h : History) :
    rowsOf [h] = h.samples.map fun s => ⟨h.run, s⟩ := by
  simp only [rowsOf, List.flatMap_cons, List.flatMap_nil, List.append_nil]
  apply List.map_congr_left
  intro s member
  rw [← h.keyed s member]

theorem rowsOf_push (h : History) (s : Sample) (same : s.key = h.key) :
    rowsOf [h.push s same] = rowsOf [h] ++ [⟨h.run, s⟩] := by
  rw [rowsOf_singleton, rowsOf_singleton, History.push, List.map_append, List.map_singleton]

theorem series_of_mem_rowsOf {h : History} {row : Row} (member : row ∈ rowsOf [h]) :
    row.series = h.series := by
  rw [rowsOf_singleton] at member
  obtain ⟨s, there, rfl⟩ := List.mem_map.1 member
  rw [Row.series, h.keyed s there, History.series]

theorem map_sample_rowsOf (h : History) : (rowsOf [h]).map Row.sample = h.samples := by
  rw [rowsOf_singleton, List.map_map]
  exact List.map_id _

theorem length_rowsOf (h : History) : (rowsOf [h]).length = h.size := by
  rw [rowsOf_singleton, List.length_map, History.size]

theorem samplesOf_rowsOf_of_notMem {series : Series} {histories : List History}
    (absent : series ∉ histories.map History.series) : samplesOf series (rowsOf histories) = [] := by
  induction histories with
  | nil => rfl
  | cons h rest ih =>
    rw [List.map_cons, List.mem_cons, not_or] at absent
    rw [rowsOf_cons, samplesOf_append, ih absent.2, List.append_nil]
    apply samplesOf_eq_nil
    intro row member same
    exact absent.1 (same.symm.trans (series_of_mem_rowsOf member))

/-! ### Grouping

Rows in the order of their metrics, without a record of places: each looks for its history among all
that there are. -/

/-- Puts a row at the end of the history of its run and key, or starts that history at the end. -/
def addRow (row : Row) : List History → List History
  | [] => [(History.empty row.run row.sample.key).push row.sample rfl]
  | h :: rest =>
    if same : h.run = row.run ∧ h.key = row.sample.key then
      h.push row.sample same.2.symm :: rest
    else h :: addRow row rest

/-- Rows grouped into histories. -/
def group (rows : List Row) : List History := rows.foldl (fun hs row => addRow row hs) []

theorem map_series_addRow (row : Row) (histories : List History) :
    (addRow row histories).map History.series =
      if row.series ∈ histories.map History.series then histories.map History.series
      else histories.map History.series ++ [row.series] := by
  induction histories with
  | nil => rfl
  | cons h rest ih =>
    rw [addRow]
    by_cases same : h.run = row.run ∧ h.key = row.sample.key
    · have here : row.series = h.series := by
        rw [Row.series, History.series, same.1, same.2]
      simp only [same, and_self, ↓reduceDIte, List.map_cons, History.push_series, here,
        List.mem_cons, true_or, ↓reduceIte]
    · have apart : row.series ≠ h.series := by
        intro equal
        rw [Row.series, History.series, Series.mk.injEq] at equal
        exact same ⟨equal.1.symm, equal.2.symm⟩
      simp only [same, ↓reduceDIte, List.map_cons, ih, List.mem_cons, apart, false_or]
      split <;> rfl

theorem nodup_addRow (row : Row) {histories : List History}
    (distinct : (histories.map History.series).Nodup) :
    ((addRow row histories).map History.series).Nodup := by
  rw [map_series_addRow]
  split
  · exact distinct
  · rename_i absent
    refine List.nodup_append.2 ⟨distinct, List.pairwise_singleton _ _, ?_⟩
    intro series member other there same
    rw [List.mem_singleton] at there
    exact absent (there ▸ same ▸ member)

theorem rowsOf_addRow_perm (row : Row) (histories : List History) :
    (rowsOf (addRow row histories)).Perm (rowsOf histories ++ [row]) := by
  induction histories with
  | nil => exact List.Perm.refl _
  | cons h rest ih =>
    rw [addRow]
    split
    · rename_i same
      rw [rowsOf_cons, rowsOf_push, rowsOf_cons h rest, List.append_assoc, List.append_assoc, same.1]
      exact List.Perm.append_left _ List.perm_append_comm
    · rw [rowsOf_cons, rowsOf_cons h rest, List.append_assoc]
      exact List.Perm.append_left _ ih

/-- No other group has rows of the metric, so behind its own group is behind all its rows. -/
theorem samplesOf_addRow (series : Series) (row : Row) {histories : List History}
    (distinct : (histories.map History.series).Nodup) :
    samplesOf series (rowsOf (addRow row histories)) =
      samplesOf series (rowsOf histories) ++ samplesOf series [row] := by
  induction histories with
  | nil => rfl
  | cons h rest ih =>
    rw [List.map_cons, List.nodup_cons] at distinct
    rw [addRow]
    split
    · rename_i same
      have pushed : rowsOf [h.push row.sample same.2.symm] = rowsOf [h] ++ [row] := by
        rw [rowsOf_push, same.1]
      have here : h.series = row.series := by
        rw [Row.series, History.series, same.1, same.2]
      rw [rowsOf_cons, pushed, rowsOf_cons h rest, samplesOf_append, samplesOf_append,
        samplesOf_append, List.append_assoc, List.append_assoc]
      congr 1
      by_cases mine : series = row.series
      · rw [samplesOf_rowsOf_of_notMem (by rw [mine, ← here]; exact distinct.1), List.append_nil,
          List.nil_append]
      · rw [samplesOf_singleton_of_ne row mine, List.append_nil, List.nil_append]
    · rw [rowsOf_cons, rowsOf_cons h rest, samplesOf_append, samplesOf_append, ih distinct.2,
        List.append_assoc]

theorem group_concat (rows : List Row) (row : Row) :
    group (rows ++ [row]) = addRow row (group rows) := by
  rw [group, List.foldl_append, List.foldl_cons, List.foldl_nil, ← group]

/-- No metric has two groups. -/
theorem nodup_group (rows : List Row) : ((group rows).map History.series).Nodup := by
  induction rows using List.reverseRecOn with
  | nil => exact List.nodup_nil
  | append_singleton rows row ih =>
    rw [group_concat]
    exact nodup_addRow row ih

theorem rowsOf_group_perm (rows : List Row) : (rowsOf (group rows)).Perm rows := by
  induction rows using List.reverseRecOn with
  | nil => exact List.Perm.refl _
  | append_singleton rows row ih =>
    rw [group_concat]
    exact (rowsOf_addRow_perm row _).trans (ih.append_right _)

/-- Grouping keeps the samples of each metric in order. -/
theorem samplesOf_group (series : Series) (rows : List Row) :
    samplesOf series (rowsOf (group rows)) = samplesOf series rows := by
  induction rows using List.reverseRecOn with
  | nil => rfl
  | append_singleton rows row ih =>
    rw [group_concat, samplesOf_addRow series row (nodup_group rows), ih, samplesOf_append]

end Snapshot

end RunMetrics

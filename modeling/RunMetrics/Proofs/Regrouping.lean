import RunMetrics.Proofs.BatchRows

/-!
Histories that are flattened into a batch and grouped again. Empty histories leave no row, so they are
gone; histories of one metric come back as one. What comes back is a normal form: flattened and grouped
once more it stays as it is.
-/

set_option autoImplicit false

namespace RunMetrics.Snapshot

/-- All samples that histories have of a metric, in the order of the histories, as one history. -/
def joined (series : Series) (hs : List History) : History where
  run := series.run
  key := series.key
  samples := (hs.filter fun h => h.series = series).flatMap History.samples
  keyed s member := by
    obtain ⟨h, kept, there⟩ := List.mem_flatMap.1 member
    have same : h.series = series := of_decide_eq_true (List.mem_filter.1 kept).2
    exact (h.keyed s there).trans (congrArg Series.key same)

/-- The histories without the empty ones, and those of one metric joined in the place of the first. -/
def merged (hs : List History) : List History :=
  let kept := hs.filter fun h => !h.isEmpty
  (kept.map History.series).eraseDups.map fun series => joined series kept

/-- What comes back of the batch of histories. -/
def regroup (hs : List History) : Except Failure (List History) :=
  histories [Batch.ofHistories hs]

theorem regroup_eq (hs : List History) : regroup hs = .ok (group (rowsOf hs)) :=
  (holds_ofHistories hs).histories_eq

/-! ### Batches -/

/-- The columns of rows are of one height, so that they make up a batch. -/
theorem ofColumns?_ofRows (rows : List Row) :
    Batch.ofColumns? (Batch.ofRows rows).columns = some (Batch.ofRows rows) := by
  have height : (((Batch.ofRows rows).columns.head?.map fun c => c.cells.height).getD 0) =
      (Batch.ofRows rows).height := by
    simp only [Batch.ofRows, List.head?_cons, Option.map_some, Option.getD_some, Cells.height,
      List.length_map]
  simp only [Batch.ofColumns?, height]
  exact dif_pos (Batch.ofRows rows).even

theorem hasRows_ofRows (rows : List Row) : (Batch.ofRows rows).HasRows rows :=
  ⟨rfl, rfl, rfl, rfl, rfl⟩

/-! ### Merging -/

theorem isEmpty_eq_false_iff (h : History) : h.isEmpty = false ↔ h.samples ≠ [] := by
  rw [History.isEmpty, List.isEmpty_eq_false_iff]

theorem mem_kept_iff {hs : List History} {h : History} :
    (h ∈ hs.filter fun h => !h.isEmpty) ↔ h ∈ hs ∧ h.samples ≠ [] := by
  rw [List.mem_filter, Bool.not_eq_true', isEmpty_eq_false_iff]

theorem rowsOf_eq_nil {h : History} (empty : h.samples = []) : rowsOf [h] = [] := by
  rw [rowsOf_singleton, empty, List.map_nil]

/-- Empty histories have no rows. -/
theorem rowsOf_kept (hs : List History) : rowsOf (hs.filter fun h => !h.isEmpty) = rowsOf hs := by
  induction hs with
  | nil => rfl
  | cons h rest ih =>
    rw [rowsOf_cons h rest, List.filter_cons]
    cases state : h.isEmpty with
    | true =>
      have empty : h.samples = [] := List.isEmpty_iff.1 state
      rw [Bool.not_true, if_neg Bool.false_ne_true, ih, rowsOf_eq_nil empty, List.nil_append]
    | false => rw [Bool.not_false, if_pos rfl, rowsOf_cons, ih]

/-- Histories are equal if each two in the same place are of one metric and have the same samples. -/
theorem eq_of_contents_eq {first second : List History}
    (same : first.map (fun h => (h.series, h.samples)) = second.map fun h => (h.series, h.samples)) :
    first = second := by
  refine List.map_injective_iff.2 (fun g h equal => ?_) same
  obtain ⟨series, samples⟩ := Prod.mk.inj equal
  exact History.eq_of_samples_eq (congrArg Series.run series) (congrArg Series.key series) samples

theorem contents_merged (hs : List History) :
    (merged hs).map (fun h => (h.series, h.samples)) = totals (hs.filter fun h => !h.isEmpty) := by
  rw [merged, List.map_map, totals]
  rfl

theorem group_rowsOf_eq_merged (hs : List History) : group (rowsOf hs) = merged hs := by
  apply eq_of_contents_eq
  rw [contents_merged, ← rowsOf_kept]
  exact group_rowsOf _ fun h member => (mem_kept_iff.1 member).2

/-! ### Normal forms -/

/-- No history is empty, and no two are of one metric. -/
structure Normal (hs : List History) : Prop where
  nonempty : ∀ h ∈ hs, h.samples ≠ []
  distinct : (hs.map History.series).Nodup

theorem normal_group (rows : List Row) : Normal (group rows) :=
  ⟨(grouped_group rows).nonempty, nodup_group rows⟩

theorem eraseDups_of_nodup {α : Type} [DecidableEq α] {items : List α} (distinct : items.Nodup) :
    items.eraseDups = items := by
  induction items using List.reverseRecOn with
  | nil => rfl
  | append_singleton items item ih =>
    have absent : item ∉ items := fun member =>
      (List.nodup_append.1 distinct).2.2 item member item (List.mem_singleton_self item) rfl
    rw [eraseDups_concat, if_neg absent, ih (List.nodup_append.1 distinct).1]

/-- The contents of histories can be told from their metrics if each holds all samples of its own. -/
theorem contents_eq {hs : List History} {rows : List Row}
    (whole : ∀ h ∈ hs, h.samples = samplesOf h.series rows) :
    hs.map (fun h => (h.series, h.samples)) =
      (hs.map History.series).map fun series => (series, samplesOf series rows) := by
  rw [List.map_map]
  apply List.map_congr_left
  intro h member
  rw [Function.comp_apply, whole h member]

/-- In a normal form there is nothing to drop and nothing to join. -/
theorem Normal.group_rowsOf {hs : List History} (normal : Normal hs) : group (rowsOf hs) = hs := by
  have order : (group (rowsOf hs)).map History.series = hs.map History.series := by
    rw [map_series_group, eraseDups_series_rowsOf hs normal.nonempty,
      eraseDups_of_nodup normal.distinct]
  apply eq_of_contents_eq
  rw [contents_eq fun g member => samples_of_mem_group member, order,
    contents_eq fun h member => (samplesOf_rowsOf_of_mem normal.distinct member).symm]

/-- The batch of histories has as many rows as they have samples, and its columns fit together. What
comes back of it are the histories without the empty ones, those of one metric joined in the place of
the first. So histories come back unchanged just if none is empty and no two are of one metric; what has
come back once comes back unchanged; and its batch has the rows of the first one in another order, but
in the same order for each metric. -/
theorem regrouping_merges_histories (hs : List History) :
    (Batch.ofHistories hs).height = (hs.map History.size).sum ∧
      Batch.ofColumns? (Batch.ofHistories hs).columns = some (Batch.ofHistories hs) ∧
      regroup hs = .ok (merged hs) ∧
      (regroup hs = .ok hs ↔ (∀ h ∈ hs, h.samples ≠ []) ∧ (hs.map History.series).Nodup) ∧
      regroup (merged hs) = .ok (merged hs) ∧
      ∃ rows again, (Batch.ofHistories hs).HasRows rows ∧
        (Batch.ofHistories (merged hs)).HasRows again ∧ again.Perm rows ∧
        ∀ series, samplesOf series again = samplesOf series rows := by
  have back : group (rowsOf hs) = merged hs := group_rowsOf_eq_merged hs
  have normal : Normal (merged hs) := back ▸ normal_group (rowsOf hs)
  refine ⟨length_rowsOf_eq_sum hs, ofColumns?_ofRows _, by rw [regroup_eq, back], ?_, ?_, ?_⟩
  · rw [regroup_eq]
    constructor
    · intro same
      have unchanged : Normal hs := Except.ok.inj same ▸ normal_group (rowsOf hs)
      exact ⟨unchanged.nonempty, unchanged.distinct⟩
    · rintro ⟨nonempty, distinct⟩
      rw [Normal.group_rowsOf ⟨nonempty, distinct⟩]
  · rw [regroup_eq, normal.group_rowsOf]
  · refine ⟨_, _, hasRows_ofRows (rowsOf hs), hasRows_ofRows (rowsOf (merged hs)), ?_, ?_⟩
    · rw [← back]
      exact rowsOf_group_perm (rowsOf hs)
    · intro series
      rw [← back]
      exact samplesOf_group series (rowsOf hs)

end RunMetrics.Snapshot

import Mathlib.Data.List.Nodup
import RunMetrics.Proofs.HistoryRows

/-!
The loop that groups rows. It remembers for each metric the place of its history, so a row need not look
for it. That the places are right is what the loop keeps from row to row and from batch to batch: a metric
has a place if the history there is its own, and only then. So no metric has two places, the sample of a
row is never foreign to the history that it is appended to, and what comes out is the grouping of all rows.
-/

set_option autoImplicit false

namespace RunMetrics.Snapshot

/-- A row of a metric that has a history changes that one alone. -/
theorem addRow_eq_set {row : Row} {histories : List History} {place : Nat}
    (distinct : (histories.map History.series).Nodup) (inside : place < histories.length)
    (here : histories[place].series = row.series) :
    addRow row histories =
      histories.set place (histories[place].push row.sample (congrArg Series.key here).symm) := by
  induction histories generalizing place with
  | nil => cases inside
  | cons h rest ih =>
    rw [List.map_cons, List.nodup_cons] at distinct
    cases place with
    | zero =>
      have same : h.run = row.run ∧ h.key = row.sample.key :=
        ⟨congrArg Series.run here, congrArg Series.key here⟩
      rw [addRow, dif_pos same]
      rfl
    | succ place =>
      have within : place < rest.length := Nat.lt_of_succ_lt_succ inside
      have later : rest[place].series = row.series := here
      have apart : ¬ (h.run = row.run ∧ h.key = row.sample.key) := fun same =>
        distinct.1 <| by
          have head : h.series = row.series := by rw [History.series, same.1, same.2, Row.series]
          rw [head, ← later]
          exact List.mem_map_of_mem (List.getElem_mem _)
      rw [addRow, dif_neg apart, ih distinct.2 within later]
      rfl

/-- A row of a metric that has none starts one at the end. -/
theorem addRow_eq_append {row : Row} {histories : List History}
    (absent : row.series ∉ histories.map History.series) :
    addRow row histories =
      histories ++ [(History.empty row.run row.sample.key).push row.sample rfl] := by
  induction histories with
  | nil => rfl
  | cons h rest ih =>
    rw [List.map_cons, List.mem_cons, not_or] at absent
    have apart : ¬ (h.run = row.run ∧ h.key = row.sample.key) := fun same =>
      absent.1 (by rw [History.series, same.1, same.2, Row.series])
    rw [addRow, dif_neg apart, ih absent.2, List.cons_append]

namespace Groups

variable {g : Groups} {series : Series} {place : Nat}

/-- A metric has a place exactly if the history there is its own. -/
def Coherent (g : Groups) : Prop :=
  ∀ series place, g.places.get? series = some place ↔
    (g.histories.map History.series)[place]? = some series

theorem Coherent.nodup (coherent : g.Coherent) : (g.histories.map History.series).Nodup := by
  rw [List.nodup_iff_getElem?_ne_getElem?]
  intro i j before inside same
  obtain ⟨series, there⟩ : ∃ series, (g.histories.map History.series)[j]? = some series :=
    ⟨_, List.getElem?_eq_getElem inside⟩
  have first := (coherent series i).2 (same.trans there)
  have second := (coherent series j).2 there
  rw [first] at second
  exact Nat.ne_of_lt before (Option.some.inj second)

theorem Coherent.absent (coherent : g.Coherent) (unplaced : g.places.get? series = none) :
    series ∉ g.histories.map History.series := by
  intro member
  obtain ⟨place, there⟩ := List.mem_iff_getElem?.1 member
  rw [(coherent series place).2 there] at unplaced
  cases unplaced

theorem locate_of_placed (found : g.places.get? series = some place) :
    g.locate series = ⟨g, place, g.inside series place found⟩ := by
  unfold locate
  split
  · rename_i other there
    cases there.symm.trans found
    rfl
  · rename_i none_there
    cases none_there.symm.trans found

theorem length_lt_start (g : Groups) (series : Series) :
    g.histories.length < (g.start series).histories.length := by
  simp [start]

theorem locate_of_unplaced (unplaced : g.places.get? series = none) :
    g.locate series = ⟨g.start series, g.histories.length, g.length_lt_start series⟩ := by
  unfold locate
  split
  · rename_i other there
    cases there.symm.trans unplaced
  · rfl

theorem getElem?_concat_eq_some_iff {α : Type} {items : List α} {item other : α} :
    (items ++ [item])[place]? = some other ↔
      items[place]? = some other ∨ place = items.length ∧ item = other := by
  rcases Nat.lt_trichotomy place items.length with inside | rfl | beyond
  · rw [List.getElem?_append_left inside]
    exact ⟨Or.inl, fun either => either.resolve_right fun last => Nat.ne_of_lt inside last.1⟩
  · rw [List.getElem?_concat_length, List.getElem?_eq_none (Nat.le_refl _), Option.some.injEq]
    simp
  · have length : (items ++ [item]).length ≤ place := by
      rwa [List.length_append, List.length_singleton]
    rw [List.getElem?_eq_none length, List.getElem?_eq_none (Nat.le_of_lt beyond)]
    simp [Nat.ne_of_gt beyond]

/-- The history that is started stands where its metric is said to be, and no other metric moves. -/
theorem Coherent.start (coherent : g.Coherent) (unplaced : g.places.get? series = none) :
    (g.start series).Coherent := by
  intro other place
  have started : (g.start series).histories.map History.series =
      g.histories.map History.series ++ [series] := by
    simp only [Groups.start, List.map_append, List.map_singleton]
    rfl
  rw [started, getElem?_concat_eq_some_iff, List.length_map, ← coherent other place]
  -- Both sides now say what was there before, or that the metric is the one that was started.
  simp only [Groups.start, Table.get?_insert]
  by_cases same : other = series
  · subst same
    rw [if_pos Std.ReflCmp.compare_self, unplaced]
    simp [eq_comm]
  · have apart : compare other series ≠ .eq := fun equal =>
      same (Std.LawfulEqCmp.eq_of_compare equal)
    rw [if_neg apart, or_iff_left fun last => same last.2.symm]

/-- A history may be replaced by another of its metric. -/
theorem Coherent.set (coherent : g.Coherent) (inside : place < g.histories.length) {h : History}
    (same : h.series = g.histories[place].series) : (g.set place h).Coherent := by
  have unchanged : (g.set place h).histories.map History.series = g.histories.map History.series := by
    have within : place < (g.histories.map History.series).length := by rwa [List.length_map]
    have here : g.histories[place].series = (g.histories.map History.series)[place] :=
      (List.getElem_map _).symm
    rw [Groups.set, List.map_set, same, here]
    exact List.set_getElem_self _
  intro other position
  rw [unchanged]
  exact coherent other position

/-- The sample of a row is never foreign to the history in the place of its metric. -/
theorem Coherent.addRow (coherent : g.Coherent) (row : Row) :
    ∃ next, g.addRow row = .ok next ∧ next.Coherent ∧
      next.histories = Snapshot.addRow row g.histories := by
  cases found : g.places.get? row.series with
  | some place =>
    have inside := g.inside row.series place found
    have here : g.histories[place].series = row.series := by
      have there := (coherent row.series place).1 found
      rw [List.getElem?_map, List.getElem?_eq_getElem inside] at there
      exact Option.some.inj there
    have keyed : row.sample.key = g.histories[place].key := (congrArg Series.key here).symm
    refine ⟨g.set place (g.histories[place].push row.sample keyed), ?_,
      coherent.set inside (History.push_series _ _ keyed), (addRow_eq_set coherent.nodup inside here).symm⟩
    rw [Groups.addRow, locate_of_placed found]
    simp only [Fin.getElem_fin, History.append_of_key_eq _ keyed]
    rfl
  | none =>
    -- The history that is appended to is the empty one which has just been started.
    have started := coherent.start found
    let fresh := History.empty row.run row.sample.key
    have inside := g.length_lt_start row.series
    have last : (g.start row.series).histories[g.histories.length] = fresh :=
      List.getElem_concat_length rfl _
    have keyed : row.sample.key = fresh.key := rfl
    refine ⟨(g.start row.series).set g.histories.length (fresh.push row.sample keyed), ?_,
      started.set inside (by rw [last, History.push_series]), ?_⟩
    · rw [Groups.addRow, locate_of_unplaced found]
      simp only [Fin.getElem_fin, last, History.append_of_key_eq fresh keyed]
      rfl
    · rw [addRow_eq_append (coherent.absent found)]
      simp only [Groups.set, Groups.start, List.set_append_right _ _ (Nat.le_refl _), Nat.sub_self,
        List.set_cons_zero]
      rfl

/-- The state of the loop behind rows. -/
structure Track (g : Groups) (rows : List Row) : Prop where
  coherent : g.Coherent
  histories : g.histories = group rows

theorem track_empty : empty.Track [] := ⟨fun _ _ => ⟨nofun, nofun⟩, rfl⟩

theorem Track.addRow {rows : List Row} (track : g.Track rows) (row : Row) :
    ∃ next, g.addRow row = .ok next ∧ next.Track (rows ++ [row]) := by
  obtain ⟨next, added, coherent, histories⟩ := track.coherent.addRow row
  refine ⟨next, added, coherent, ?_⟩
  rw [histories, track.histories, group_concat]

theorem Track.addRows {before : List Row} (track : g.Track before) (rows : List Row) :
    ∃ next, rows.foldlM Groups.addRow g = .ok next ∧ next.Track (before ++ rows) := by
  induction rows generalizing g before with
  | nil => exact ⟨g, rfl, by rwa [List.append_nil]⟩
  | cons row rest ih =>
    obtain ⟨middle, added, tracked⟩ := track.addRow row
    obtain ⟨next, others, whole⟩ := ih tracked
    rw [List.append_assoc, List.singleton_append] at whole
    refine ⟨next, ?_, whole⟩
    rw [List.foldlM_cons, added]
    exact others

theorem addBatch_of_rows {b : Batch} {rows : List Row} (read : b.rows = .ok rows) :
    g.addBatch b = rows.foldlM Groups.addRow g := by
  rw [addBatch, read]
  rfl

theorem addBatch_of_fault {b : Batch} {fault : SnapshotFault} (read : b.rows = .error fault) :
    g.addBatch b = .error (.snapshot fault) := by
  rw [addBatch, read]
  rfl

/-- No row is lost between two batches: the next one goes on from the same state. -/
theorem Track.addBatches {before : List Row} (track : g.Track before) {batches : List Batch}
    {parts : List (List Row)} (read : batches.mapM Batch.rows = .ok parts) :
    ∃ next, batches.foldlM addBatch g = .ok next ∧ next.Track (before ++ parts.flatten) := by
  -- On the batches that are left, since the places of earlier ones are all in the state.
  induction batches generalizing g before parts with
  | nil =>
    rw [List.mapM_nil] at read
    cases read
    exact ⟨g, rfl, by rwa [List.flatten_nil, List.append_nil]⟩
  | cons b rest ih =>
    rw [List.mapM_cons] at read
    cases first : b.rows with
    | error fault =>
      rw [first] at read
      cases read
    | ok rows =>
      cases others : rest.mapM Batch.rows with
      | error fault =>
        rw [first, others] at read
        cases read
      | ok pieces =>
        rw [first, others] at read
        cases read
        obtain ⟨middle, added, tracked⟩ := track.addRows rows
        obtain ⟨next, last, whole⟩ := ih tracked others
        rw [List.append_assoc, ← List.flatten_cons] at whole
        refine ⟨next, ?_, whole⟩
        rw [List.foldlM_cons, addBatch_of_rows first, added]
        exact last

/-- The loop stops at the first batch that cannot be read. -/
theorem Track.addBatches_of_fault {before : List Row} (track : g.Track before)
    {batches : List Batch} {fault : SnapshotFault}
    (read : batches.mapM Batch.rows = .error fault) :
    batches.foldlM addBatch g = .error (.snapshot fault) := by
  induction batches generalizing g before with
  | nil => cases read
  | cons b rest ih =>
    rw [List.mapM_cons] at read
    rw [List.foldlM_cons]
    cases first : b.rows with
    | error first_fault =>
      rw [first] at read
      cases read
      rw [addBatch_of_fault first]
      rfl
    | ok rows =>
      obtain ⟨middle, added, tracked⟩ := track.addRows rows
      rw [addBatch_of_rows first, added]
      cases others : rest.mapM Batch.rows with
      | error later =>
        rw [first, others] at read
        cases read
        exact ih tracked others
      | ok pieces =>
        rw [first, others] at read
        cases read

end Groups

theorem histories_of_rows {batches : List Batch} {parts : List (List Row)}
    (read : batches.mapM Batch.rows = .ok parts) : histories batches = .ok (group parts.flatten) := by
  obtain ⟨g, looped, track⟩ := Groups.track_empty.addBatches read
  rw [histories, looped]
  exact congrArg Except.ok track.histories

theorem histories_of_fault {batches : List Batch} {fault : SnapshotFault}
    (read : batches.mapM Batch.rows = .error fault) : histories batches = .error (.snapshot fault) := by
  rw [histories, Groups.track_empty.addBatches_of_fault read]
  rfl

end RunMetrics.Snapshot

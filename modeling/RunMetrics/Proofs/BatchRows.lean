import Mathlib.Data.List.Forall2
import RunMetrics.Proofs.SnapshotTable

/-!
Batches as tables. A batch has rows if each of five columns is there and has cells of its type, and then
the cells are the fields of the rows; otherwise the first column that it lacks is named. What the rows of
batches are grouped into depends on the rows alone, however they are cut into batches.
-/

set_option autoImplicit false

namespace RunMetrics.Snapshot

/-! ### Columns -/

/-- The types of cells that a snapshot is made of. -/
inductive Kind where
  | text
  | double
  | integer
deriving DecidableEq

/-- The type of cells, if a snapshot uses it. -/
def Cells.kind? : Cells → Option Kind
  | .text _ => some .text
  | .double _ => some .double
  | .integer _ => some .integer
  | .foreign _ _ => none

/-- Reading cells succeeds on those of one type, and gives their values. -/
structure Kind.Read {α : Type} (kind : Kind) (typed : Cells → Option (List α))
    (make : List α → Cells) : Prop where
  typed_eq : ∀ values, typed (make values) = some values
  exists_values : ∀ cells : Cells, cells.kind? = some kind → ∃ values, cells = make values
  other : ∀ cells : Cells, cells.kind? ≠ some kind → typed cells = none
  height : ∀ values, (make values).height = values.length

theorem Kind.text_read : Kind.text.Read Cells.texts? Cells.text where
  typed_eq _ := rfl
  exists_values cells same := by cases cells <;> simp_all [Cells.kind?]
  other cells apart := by cases cells <;> simp_all [Cells.kind?, Cells.texts?]
  height _ := rfl

theorem Kind.double_read : Kind.double.Read Cells.doubles? Cells.double where
  typed_eq _ := rfl
  exists_values cells same := by cases cells <;> simp_all [Cells.kind?]
  other cells apart := by cases cells <;> simp_all [Cells.kind?, Cells.doubles?]
  height _ := rfl

theorem Kind.integer_read : Kind.integer.Read Cells.integers? Cells.integer where
  typed_eq _ := rfl
  exists_values cells same := by cases cells <;> simp_all [Cells.kind?]
  other cells apart := by cases cells <;> simp_all [Cells.kind?, Cells.integers?]
  height _ := rfl

/-- The columns of a snapshot, by name, and the types of their cells. -/
def schema : List (String × Kind) :=
  [("run_id", .text), ("metric_key", .text), ("value", .double), ("timestamp", .integer),
    ("step", .integer)]

namespace Batch

/-- The cells of the first column of a name, whatever their type. -/
def cells? (b : Batch) (name : String) : Option Cells :=
  (b.columns.find? fun c => c.name = name).map Column.cells

/-- Whether there is a column of the name and the first one has cells of the type. -/
def provides (b : Batch) (field : String × Kind) : Bool :=
  (b.cells? field.1).any fun cells => cells.kind? = some field.2

/-- The first column of a snapshot that the batch does not provide. -/
def missing? (b : Batch) : Option String :=
  (schema.find? fun field => !b.provides field).map Prod.fst

/-- The cells of the batch are the fields of the rows. -/
structure HasRows (b : Batch) (rows : List Row) : Prop where
  runs : b.cells? "run_id" = some (.text (rows.map Row.run))
  keys : b.cells? "metric_key" = some (.text (rows.map fun r => r.sample.key))
  values : b.cells? "value" = some (.double (rows.map fun r => r.sample.value))
  timestamps : b.cells? "timestamp" = some (.integer (rows.map fun r => r.sample.timestamp))
  steps : b.cells? "step" = some (.integer (rows.map fun r => r.sample.step))

theorem cells_eq {α : Type} (b : Batch) (name : String) (typed : Cells → Option (List α)) :
    b.cells name typed =
      match (b.cells? name).bind typed with
      | some values => .ok values
      | none => .error (.badColumn name) := by
  rw [cells, cells?, Option.bind_map]
  rfl

variable {b : Batch} {α : Type} {kind : Kind} {typed : Cells → Option (List α)}
  {make : List α → Cells} {name : String}

theorem height_of_cells? {cells : Cells} (found : b.cells? name = some cells) :
    cells.height = b.height := by
  obtain ⟨column, first, rfl⟩ := Option.map_eq_some_iff.1 found
  exact b.even column (List.mem_of_find?_eq_some first)

theorem cells_of_provides (read : kind.Read typed make) (there : b.provides (name, kind) = true) :
    ∃ values, b.cells name typed = .ok values ∧ b.cells? name = some (make values) ∧
      values.length = b.height := by
  unfold provides at there
  cases found : b.cells? name with
  | none =>
    rw [found] at there
    cases there
  | some cells =>
    rw [found] at there
    obtain ⟨values, rfl⟩ := read.exists_values cells (by simpa using there)
    refine ⟨values, ?_, rfl, ?_⟩
    · rw [cells_eq, found, Option.bind_some, read.typed_eq]
    · rw [← read.height, height_of_cells? found]

theorem cells_of_not_provides (read : kind.Read typed make)
    (lacking : b.provides (name, kind) = false) : b.cells name typed = .error (.badColumn name) := by
  rw [cells_eq]
  unfold provides at lacking
  cases found : b.cells? name with
  | none => rfl
  | some cells =>
    rw [found] at lacking
    rw [Option.bind_some, read.other cells (by simpa using lacking)]

/-! ### Rows -/

/-- Of columns of one height nothing is lost when they are put together. -/
theorem map_assemble {runs keys : List String} {values : List Binary64}
    {timestamps steps : List Int64} {n : Nat} (first : runs.length = n) (second : keys.length = n)
    (third : values.length = n) (fourth : timestamps.length = n) (fifth : steps.length = n) :
    let rows := assemble runs keys values timestamps steps
    rows.map Row.run = runs ∧ (rows.map fun r => r.sample.key) = keys ∧
      (rows.map fun r => r.sample.value) = values ∧
      (rows.map fun r => r.sample.timestamp) = timestamps ∧
      (rows.map fun r => r.sample.step) = steps := by
  induction n generalizing runs keys values timestamps steps with
  | zero => simp_all [assemble]
  | succ n ih =>
    obtain ⟨run, runs, rfl⟩ := List.exists_cons_of_length_eq_add_one first
    obtain ⟨key, keys, rfl⟩ := List.exists_cons_of_length_eq_add_one second
    obtain ⟨value, values, rfl⟩ := List.exists_cons_of_length_eq_add_one third
    obtain ⟨timestamp, timestamps, rfl⟩ := List.exists_cons_of_length_eq_add_one fourth
    obtain ⟨step, steps, rfl⟩ := List.exists_cons_of_length_eq_add_one fifth
    simp only [List.length_cons, Nat.add_right_cancel_iff] at first second third fourth fifth
    obtain ⟨runs', keys', values', timestamps', steps'⟩ := ih first second third fourth fifth
    simp only [assemble, List.map_cons, runs', keys', values', timestamps', steps', and_self]

theorem HasRows.length_eq {rows : List Row} (table : b.HasRows rows) : rows.length = b.height := by
  rw [← height_of_cells? table.runs, Cells.height, List.length_map]

/-- What looking up columns in order comes to: the first that is not provided is named, and if all are,
there is an answer as it is wanted. -/
def Gathers {β : Type} (b : Batch) (fields : List (String × Kind)) (wanted : β → Prop)
    (result : Except SnapshotFault β) : Prop :=
  match fields.find? fun field => !b.provides field with
  | some field => result = .error (.badColumn field.1)
  | none => ∃ answer, result = .ok answer ∧ wanted answer

theorem Gathers.cons {β : Type} {fields : List (String × Kind)} {wanted : β → Prop}
    {next : List α → Except SnapshotFault β} (read : kind.Read typed make)
    (rest : ∀ values, b.cells? name = some (make values) → values.length = b.height →
      b.Gathers fields wanted (next values)) :
    b.Gathers ((name, kind) :: fields) wanted (b.cells name typed >>= next) := by
  unfold Gathers
  rw [List.find?_cons]
  cases there : b.provides (name, kind) with
  | false =>
    rw [cells_of_not_provides read there]
    rfl
  | true =>
    obtain ⟨values, found, cells, length⟩ := cells_of_provides read there
    rw [found]
    exact rest values cells length

theorem rows_gathers (b : Batch) : b.Gathers schema b.HasRows b.rows := by
  refine .cons Kind.text_read fun runs runCells runLength => ?_
  refine .cons Kind.text_read fun keys keyCells keyLength => ?_
  refine .cons Kind.double_read fun values valueCells valueLength => ?_
  refine .cons Kind.integer_read fun timestamps timestampCells timestampLength => ?_
  refine .cons Kind.integer_read fun steps stepCells stepLength => ?_
  obtain ⟨runs', keys', values', timestamps', steps'⟩ :=
    map_assemble runLength keyLength valueLength timestampLength stepLength
  refine ⟨_, rfl, ?_, ?_, ?_, ?_, ?_⟩
  · rw [runCells, runs']
  · rw [keyCells, keys']
  · rw [valueCells, values']
  · rw [timestampCells, timestamps']
  · rw [stepCells, steps']

theorem rows_of_missing? {name : String} (lacking : b.missing? = some name) :
    b.rows = .error (.badColumn name) := by
  have gathered := b.rows_gathers
  obtain ⟨field, found, rfl⟩ := Option.map_eq_some_iff.1 lacking
  rw [Gathers, found] at gathered
  exact gathered

theorem exists_hasRows (complete : b.missing? = none) : ∃ rows, b.HasRows rows := by
  have gathered := b.rows_gathers
  rw [missing?, Option.map_eq_none_iff] at complete
  rw [Gathers, complete] at gathered
  obtain ⟨rows, -, table⟩ := gathered
  exact ⟨rows, table⟩

theorem HasRows.rows_eq {rows : List Row} (table : b.HasRows rows) : b.rows = .ok rows := by
  unfold Batch.rows
  rw [cells_eq, cells_eq, cells_eq, cells_eq, cells_eq, table.runs, table.keys, table.values,
    table.timestamps, table.steps]
  exact congrArg Except.ok (assemble_map rows)

theorem missing?_eq_none_iff : b.missing? = none ↔ ∀ field ∈ schema, b.provides field = true := by
  simp [missing?]

end Batch

/-! ### Tables -/

theorem mapM_rows_of_missing? {batches : List Batch} {name : String}
    (lacking : batches.findSome? Batch.missing? = some name) :
    batches.mapM Batch.rows = .error (.badColumn name) := by
  induction batches with
  | nil => cases lacking
  | cons b rest ih =>
    rw [List.mapM_cons]
    rw [List.findSome?_cons] at lacking
    cases missing : b.missing? with
    | some first =>
      rw [missing] at lacking
      cases lacking
      rw [Batch.rows_of_missing? missing]
      rfl
    | none =>
      rw [missing] at lacking
      obtain ⟨rows, table⟩ := Batch.exists_hasRows missing
      rw [table.rows_eq, ih lacking]
      rfl

theorem exists_parts {batches : List Batch} (complete : ∀ b ∈ batches, b.missing? = none) :
    ∃ parts, List.Forall₂ Batch.HasRows batches parts := by
  induction batches with
  | nil => exact ⟨[], .nil⟩
  | cons b rest ih =>
    obtain ⟨rows, table⟩ := Batch.exists_hasRows (complete b List.mem_cons_self)
    obtain ⟨parts, tables⟩ := ih fun other member => complete other (List.mem_cons_of_mem _ member)
    exact ⟨rows :: parts, .cons table tables⟩

theorem holds_of_tables {batches : List Batch} {parts : List (List Row)}
    (tables : List.Forall₂ Batch.HasRows batches parts) : Holds batches parts.flatten := by
  refine ⟨parts, ?_, rfl⟩
  induction tables with
  | nil => rfl
  | cons table _ ih =>
    rw [List.mapM_cons, table.rows_eq, ih]
    rfl

theorem length_of_tables {batches : List Batch} {parts : List (List Row)}
    (tables : List.Forall₂ Batch.HasRows batches parts) :
    parts.flatten.length = (batches.map Batch.height).sum := by
  induction tables with
  | nil => rfl
  | cons table _ ih =>
    rw [List.flatten_cons, List.length_append, table.length_eq, ih, List.map_cons, List.sum_cons]

/-! ### Groups -/

/-- The histories are the rows, grouped by metric. -/
structure Grouped (rows : List Row) (histories : List History) : Prop where
  /-- One for each metric that occurs, in order of first appearance. -/
  order : histories.map History.series = (rows.map Row.series).eraseDups
  /-- Each with the samples of its rows, in their order. -/
  samples : ∀ h ∈ histories, h.samples = samplesOf h.series rows
  nonempty : ∀ h ∈ histories, h.samples ≠ []
  total : (histories.map History.size).sum = rows.length

theorem grouped_group (rows : List Row) : Grouped rows (group rows) where
  order := map_series_group rows
  samples h member := samples_of_mem_group member
  nonempty h member := by
    have listed := List.mem_map_of_mem (f := History.series) member
    rw [map_series_group, List.mem_eraseDups] at listed
    obtain ⟨row, there, same⟩ := List.mem_map.1 listed
    rw [samples_of_mem_group member, samplesOf, ← same]
    simp only [ne_eq, List.map_eq_nil_iff, List.filter_eq_nil_iff, decide_eq_true_eq]
    exact fun none_kept => none_kept row there rfl
  total := by rw [← length_rowsOf_eq_sum, (rowsOf_group_perm rows).length_eq]

/-- Batches cannot be read if one of them, with or without rows, does not provide a column of its type,
and only then; the fault names the first column lacking in the first such batch. Otherwise every batch has
rows, and all rows together are grouped into histories, of which each metric that occurs has one. Nothing
else about the batches matters, so the same rows in other batches give the same histories. -/
theorem grouped_wherever_cut (batches : List Batch) :
    ((∃ f, histories batches = .error f) ↔
      ∃ b ∈ batches, ∃ field ∈ schema, b.provides field = false) ∧
      (∀ f, histories batches = .error f ↔
        ∃ name, batches.findSome? Batch.missing? = some name ∧ f = .snapshot (.badColumn name)) ∧
      ((∀ b ∈ batches, ∀ field ∈ schema, b.provides field = true) →
        ∃ parts, List.Forall₂ Batch.HasRows batches parts) ∧
      ∀ parts, List.Forall₂ Batch.HasRows batches parts →
        ∃ hs, histories batches = .ok hs ∧ Grouped parts.flatten hs ∧
          parts.flatten.length = (batches.map Batch.height).sum ∧
          ∀ others pieces, List.Forall₂ Batch.HasRows others pieces →
            pieces.flatten = parts.flatten → histories others = .ok hs := by
  have lacking : batches.findSome? Batch.missing? = none ↔
      ∀ b ∈ batches, ∀ field ∈ schema, b.provides field = true := by
    simp only [List.findSome?_eq_none_iff, Batch.missing?_eq_none_iff]
  have named : ∀ f, histories batches = .error f ↔
      ∃ name, batches.findSome? Batch.missing? = some name ∧ f = .snapshot (.badColumn name) := by
    intro f
    cases missing : batches.findSome? Batch.missing? with
    | some name =>
      rw [histories_of_fault (mapM_rows_of_missing? missing)]
      simp [eq_comm]
    | none =>
      obtain ⟨parts, tables⟩ := exists_parts (List.findSome?_eq_none_iff.1 missing)
      simp [(holds_of_tables tables).histories_eq]
  refine ⟨?_, named, fun complete => ?_, fun parts tables => ?_⟩
  · simp only [named]
    constructor
    · rintro ⟨f, name, missing, -⟩
      by_contra provided
      rw [lacking.2 (by simpa using provided)] at missing
      cases missing
    · rintro ⟨b, member, field, listed, lacks⟩
      cases missing : batches.findSome? Batch.missing? with
      | some name => exact ⟨_, name, rfl, rfl⟩
      | none =>
        rw [lacking.1 missing b member field listed] at lacks
        cases lacks
  · exact exists_parts (List.findSome?_eq_none_iff.1 (lacking.2 complete))
  · refine ⟨group parts.flatten, (holds_of_tables tables).histories_eq, grouped_group _,
      length_of_tables tables, fun others pieces same rows => ?_⟩
    rw [(holds_of_tables same).histories_eq, rows]

/-- Three batches: the second has no rows, and the third has its columns in another order, with a second
column of one name that has another type. -/
theorem grouped_across_batches :
    let loss (run : String) (step : Int64) : Row := ⟨run, "loss", ⟨0x7ff8000000000001⟩, 0, step⟩
    let last : Batch :=
      ⟨1, [⟨"step", .integer [3], false⟩, ⟨"timestamp", .integer [0], false⟩,
        ⟨"value", .double [⟨0x7ff8000000000001⟩], false⟩, ⟨"value", .foreign "Float32" 1, false⟩,
        ⟨"metric_key", .text ["loss"], false⟩, ⟨"run_id", .text ["train"], false⟩], by decide⟩
    ∃ hs, histories [.ofRows [loss "train" 1, loss "test" 2], .ofRows [], last] = .ok hs ∧
      hs.map History.series = [⟨"train", "loss"⟩, ⟨"test", "loss"⟩] ∧
      (hs.map History.size).sum = 3 ∧
      histories [.ofRows [loss "train" 1, loss "test" 2, loss "train" 3]] = .ok hs := by
  intro loss last
  have table (rows : List Row) : (Batch.ofRows rows).HasRows rows := ⟨rfl, rfl, rfl, rfl, rfl⟩
  have lastTable : last.HasRows [loss "train" 3] := ⟨rfl, rfl, rfl, rfl, rfl⟩
  obtain ⟨-, -, -, read⟩ :=
    grouped_wherever_cut [.ofRows [loss "train" 1, loss "test" 2], .ofRows [], last]
  obtain ⟨hs, answer, grouped, -, recut⟩ :=
    read _ (.cons (table _) (.cons (table _) (.cons lastTable .nil)))
  refine ⟨hs, answer, ?_, grouped.total, recut _ _ (.cons (table _) .nil) rfl⟩
  rw [grouped.order]
  decide

end RunMetrics.Snapshot

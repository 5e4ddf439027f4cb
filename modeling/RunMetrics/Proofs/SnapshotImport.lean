import RunMetrics.Proofs.RunRegistration
import RunMetrics.Proofs.SnapshotTable
import RunMetrics.Proofs.StoreWrites

/-!
Importing a snapshot is all or nothing. Whether a history may be replayed does not depend on the
histories replayed before it, so what has passed the check goes in whole, and what has not is refused
for the first objection. This is where a roster that changes its answers within one call would do harm.
-/

set_option autoImplicit false

namespace RunMetrics

open Snapshot (Batch Row rowsOf)

/-- The failure of an outcome, if it is one. -/
def Failure.of? {α : Type} : Except Failure α → Option Failure
  | .ok _ => none
  | .error f => some f

/-- The rows of what reading a snapshot gave. -/
def Snapshot.rowsRead (read : Except Failure (List Batch)) : List Row :=
  match read with
  | .error _ => []
  | .ok batches =>
    match batches.mapM Batch.rows with
    | .ok rows => rows.flatten
    | .error _ => []

namespace Store

open Snapshot (rowsRead Holds)

variable {ρ σ : Type} [Roster ρ]

/-- Why samples of a metric may not be replayed: one that is not valid, or else a run that the roster
kept elsewhere does not know. -/
def objection (store : Store ρ σ) (series : Series) (samples : List Sample) : Option Failure :=
  (samples.findSome? fun s => Failure.of? (s.check store.settings.allowNegative)).or
    (if store.registration.admits series.run then none else some (.unknownRun series.run))

theorem forM_eq {α : Type} (test : α → Except Failure Unit) (items : List α) :
    items.forM test =
      match items.findSome? fun item => Failure.of? (test item) with
      | some f => .error f
      | none => .ok () := by
  induction items with
  | nil => rfl
  | cons item rest ih =>
    change (do test item; rest.forM test) = _
    rw [List.findSome?_cons]
    cases test item with
    | error f => rfl
    | ok => exact ih

theorem checkReplay_fst (store : Store ρ σ) (h : History) :
    (store.checkReplay h).1 =
      match store.objection h.series h.samples with
      | some f => .error f
      | none => .ok () := by
  unfold checkReplay objection Registration.admits
  rw [forM_eq]
  cases h.samples.findSome? fun s => Failure.of? (s.check store.settings.allowNegative) with
  | some f => rfl
  | none =>
    unfold requireRun knows
    cases own : store.registration.isOwn with
    | true => simp
    | false =>
      cases known : store.registration.contains h.run with
      | true => simp [History.series, known]
      | false => simp [History.series, known]

theorem objection_eq_none_iff (store : Store ρ σ) (series : Series) (samples : List Sample) :
    store.objection series samples = none ↔
      (∀ s ∈ samples, s.check store.settings.allowNegative = .ok ()) ∧
        store.registration.admits series.run = true := by
  have passed (s : Sample) : Failure.of? (s.check store.settings.allowNegative) = none ↔
      s.check store.settings.allowNegative = .ok () := by
    cases s.check store.settings.allowNegative <;> simp [Failure.of?]
  unfold objection
  rw [Option.or_eq_none_iff, List.findSome?_eq_none_iff]
  simp [passed]

/-- A history may be replayed if its samples are valid and its run is admitted. -/
theorem checkReplay_eq_ok_iff (store : Store ρ σ) (h : History) :
    (store.checkReplay h).1 = .ok () ↔
      (∀ s ∈ h.samples, s.check store.settings.allowNegative = .ok ()) ∧
        store.registration.admits h.run = true := by
  refine Iff.trans ?_ (objection_eq_none_iff store h.series h.samples)
  rw [checkReplay_fst]
  cases store.objection h.series h.samples <;> simp

/-- Grouping keeps the rows, and the samples of each metric in order. -/
theorem extends_of_group {store next : Store ρ σ} {rows : List Row}
    (settings : next.settings = store.settings)
    (grown : Slots.Grown store.slots next.slots (rowsOf (Snapshot.group rows)))
    (passed : ∀ h ∈ Snapshot.group rows, (store.checkReplay h).1 = .ok ()) :
    Extends store next rows := by
  have extended : Extends store next (rowsOf (Snapshot.group rows)) := by
    refine ⟨settings, grown, fun row member => ?_⟩
    obtain ⟨h, there, inside⟩ := List.mem_flatMap.1 member
    obtain ⟨s, sample, rfl⟩ := List.mem_map.1 inside
    have valid := checkReplay_valid store h (passed h there) s sample
    rw [← h.keyed s sample]
    exact valid
  exact extended.of_perm (Snapshot.rowsOf_group_perm rows) fun series =>
    Snapshot.samplesOf_group series rows

theorem importSnapshot_of_holds (store : Store ρ σ) {batches : List Batch} {rows : List Row}
    (holds : Holds batches rows) :
    store.importSnapshot (.ok batches) =
      andThen (store.checkAll (Snapshot.group rows)) fun _ next =>
        next.replayAll (Snapshot.group rows) :=
  importBatches_of_histories store holds.histories_eq

/-- A roster that changes its mind can stop a replay of several histories, but not keep one of them out
of a replay that succeeds. -/
theorem replayAll_eq_ok {store next : Store ρ σ} (sound : store.Sound) {histories : List History}
    {n : Nat} (success : store.replayAll histories = (.ok n, next)) :
    n = (rowsOf histories).length ∧ Extends store next (rowsOf histories) := by
  induction histories generalizing store n with
  | nil =>
    cases success
    exact ⟨rfl, sound.extends_of_slots_eq rfl rfl⟩
  | cons h rest ih =>
    have first := replay_extends store sound h
    rw [replayAll_cons] at success
    cases passed : (store.checkReplay h).1 with
    | error f =>
      rw [replay_of_refused store h passed] at success
      cases success
    | ok =>
      have counted := sound.replay_of_passed_eq_ok passed
      rcases replayed : store.replay h with ⟨answer, middle⟩
      rw [replayed] at first counted success
      cases counted
      simp only [andThen] at success
      rcases others : middle.replayAll rest with ⟨f | more, last⟩
      · rw [others] at success
        cases success
      · rw [others] at success
        cases success
        obtain ⟨length, extended⟩ := ih first.sound others
        rw [Snapshot.rowsOf_cons h rest, List.length_append, Snapshot.length_rowsOf, length]
        exact ⟨rfl, first.trans extended⟩

theorem holds_of_imported {store : Store ρ σ} {read : Except Failure (List Batch)} {n : Nat}
    (taken : (store.importSnapshot read).1 = .ok n) :
    ∃ batches, read = .ok batches ∧ Holds batches (rowsRead read) := by
  cases read with
  | error f => cases taken
  | ok batches =>
    cases parsed : batches.mapM Batch.rows with
    | error fault =>
      simp only [importSnapshot, importBatches, Snapshot.histories_of_fault parsed] at taken
      cases taken
    | ok parts => exact ⟨batches, rfl, parts, parsed, by simp only [rowsRead, parsed]⟩

/-- A snapshot whose import succeeds has gone in whole. -/
theorem importSnapshot_eq_ok {store next : Store ρ σ} (sound : store.Sound)
    {read : Except Failure (List Batch)} {n : Nat}
    (taken : store.importSnapshot read = (.ok n, next)) :
    n = (rowsRead read).length ∧ Extends store next (rowsRead read) := by
  obtain ⟨batches, rfl, holds⟩ := holds_of_imported (congrArg Prod.fst taken)
  obtain ⟨runs, asked⟩ := checkAll_snd store (Snapshot.group (rowsRead (.ok batches)))
  rw [importSnapshot_of_holds store holds] at taken
  rcases checked : store.checkAll (Snapshot.group (rowsRead (.ok batches))) with ⟨f | _, middle⟩
  · rw [checked] at taken
    cases taken
  · rw [checked] at asked taken
    subst asked
    have questions : Extends store (store.askedAll runs) [] := sound.extends_of_slots_eq rfl rfl
    obtain ⟨length, extended⟩ := replayAll_eq_ok questions.sound taken
    refine ⟨length.trans (Snapshot.rowsOf_group_perm _).length_eq, ?_⟩
    exact (questions.trans extended).of_perm (Snapshot.rowsOf_group_perm _) fun series =>
      Snapshot.samplesOf_group series _

/-- The histories have been replayed, and nothing else has changed. -/
structure Replayed (before after : Store ρ σ) (histories : List History) : Prop where
  rest : ∃ registration slots, after = { before with registration, slots }
  slots : Slots.Grown before.slots after.slots (rowsOf histories)
  registration : Registration.Enrolled before.registration after.registration
    (histories.map History.run)

variable {before after : Store ρ σ} {histories : List History}

theorem Replayed.sound (replayed : Replayed before after histories) : after.Sound :=
  replayed.slots.sound

theorem Replayed.settings (replayed : Replayed before after histories) :
    after.settings = before.settings := by
  obtain ⟨registration, slots, rfl⟩ := replayed.rest
  rfl

theorem Sound.replayed_nil {store : Store ρ σ} (sound : store.Sound) : Replayed store store [] :=
  ⟨⟨store.registration, store.slots, rfl⟩, Slots.Sound.grown sound, .refl _⟩

theorem Replayed.trans {last : Store ρ σ} {more : List History}
    (first : Replayed before after histories) (second : Replayed after last more) :
    Replayed before last (histories ++ more) := by
  obtain ⟨registration, slots, rfl⟩ := first.rest
  obtain ⟨others, grown, rfl⟩ := second.rest
  refine ⟨⟨others, grown, rfl⟩, ?_, ?_⟩
  · rw [Snapshot.rowsOf_append]
    exact first.slots.trans second.slots
  · rw [List.map_append]
    exact first.registration.trans second.registration

/-- Replaying makes no run known where runs are registered by others, and admits the others anyway. -/
theorem Replayed.objection_eq (replayed : Replayed before after histories) (series : Series)
    (samples : List Sample) : after.objection series samples = before.objection series samples := by
  have admits := replayed.registration.admits series.run
  obtain ⟨registration, slots, rfl⟩ := replayed.rest
  unfold objection
  rw [admits]

theorem Replayed.checkReplay_eq (replayed : Replayed before after histories) (h : History) :
    (after.checkReplay h).1 = (before.checkReplay h).1 := by
  rw [checkReplay_fst, checkReplay_fst, replayed.objection_eq]

variable [Roster.Steady ρ]

theorem Sound.replayed_askedAll {store : Store ρ σ} (sound : store.Sound) (runs : List String) :
    Replayed store (store.askedAll runs) [] :=
  ⟨⟨_, store.slots, rfl⟩, Slots.Sound.grown sound, Registration.enrolled_foldl_asked _ runs⟩

theorem knows_askedAll (store : Store ρ σ) (runs : List String) (run : String) :
    (store.askedAll runs).knows run = store.knows run :=
  Registration.contains_foldl_asked store.registration runs run

theorem objection_askedAll (store : Store ρ σ) (runs : List String) (series : Series)
    (samples : List Sample) :
    (store.askedAll runs).objection series samples = store.objection series samples := by
  have admits := (Registration.enrolled_foldl_asked store.registration runs).admits series.run
  unfold objection askedAll
  rw [admits]

/-- Checking histories gives the first objection to one of them. -/
theorem checkAll_fst (store : Store ρ σ) (histories : List History) :
    (store.checkAll histories).1 =
      match histories.findSome? fun h => store.objection h.series h.samples with
      | some f => .error f
      | none => .ok () := by
  induction histories generalizing store with
  | nil => rfl
  | cons h rest ih =>
    obtain ⟨runs, asked⟩ := checkReplay_snd store h
    have first := checkReplay_fst store h
    rw [checkAll_cons, List.findSome?_cons]
    rcases checked : store.checkReplay h with ⟨answer, next⟩
    rw [checked] at asked first
    simp only at asked first
    subst asked
    cases objected : store.objection h.series h.samples with
    | some f =>
      rw [objected] at first
      subst first
      rfl
    | none =>
      rw [objected] at first
      subst first
      simp only [andThen, ih, objection_askedAll]

theorem replayed_of_passed (store : Store ρ σ) (sound : store.Sound) (h : History)
    (passed : (store.checkReplay h).1 = .ok ()) :
    ∃ next, store.replay h = (.ok h.size, next) ∧ Replayed store next [h] := by
  obtain ⟨runs, asked⟩ := checkReplay_snd store h
  obtain ⟨slots, replayed, grown⟩ := replay_of_admitted store sound h passed
  rw [asked] at replayed
  refine ⟨_, replayed, ⟨_, slots, rfl⟩, grown, ?_⟩
  exact (Registration.enrolled_foldl_asked store.registration runs).trans
    (Registration.enrolled_enrol _ h.run)

/-- Histories that have all passed the check are all replayed. -/
theorem replayAll_of_passed (store : Store ρ σ) (sound : store.Sound) (histories : List History)
    (passed : ∀ h ∈ histories, (store.checkReplay h).1 = .ok ()) :
    ∃ next, store.replayAll histories = (.ok (rowsOf histories).length, next) ∧
      Replayed store next histories := by
  induction histories generalizing store with
  | nil => exact ⟨store, rfl, sound.replayed_nil⟩
  | cons h rest ih =>
    obtain ⟨middle, replayed, first⟩ :=
      replayed_of_passed store sound h (passed h List.mem_cons_self)
    have still : ∀ g ∈ rest, (middle.checkReplay g).1 = .ok () := by
      intro g member
      rw [first.checkReplay_eq]
      exact passed g (List.mem_cons_of_mem _ member)
    obtain ⟨last, others, second⟩ := ih middle first.sound still
    refine ⟨last, ?_, first.trans second⟩
    rw [replayAll_cons, replayed]
    simp only [andThen, others]
    rw [Snapshot.rowsOf_cons h rest, List.length_append, Snapshot.length_rowsOf]

/-- A snapshot to which there is an objection is refused, and nothing of it goes in. -/
theorem importSnapshot_of_objection (store : Store ρ σ) {batches : List Batch} {rows : List Row}
    (holds : Holds batches rows) {f : Failure}
    (objected : (Snapshot.group rows).findSome? (fun g => store.objection g.series g.samples) =
      some f) :
    ∃ runs, store.importSnapshot (.ok batches) = (.error f, store.askedAll runs) := by
  obtain ⟨runs, asked⟩ := checkAll_snd store (Snapshot.group rows)
  have answer := checkAll_fst store (Snapshot.group rows)
  rw [objected] at answer
  refine ⟨runs, ?_⟩
  rw [importSnapshot_of_holds store holds, ← asked]
  rcases checked : store.checkAll (Snapshot.group rows) with ⟨outcome, next⟩
  rw [checked] at answer
  simp only at answer
  subst answer
  rfl

/-- A snapshot to which there is none goes in whole. -/
theorem importSnapshot_of_no_objection (store : Store ρ σ) (sound : store.Sound)
    {batches : List Batch} {rows : List Row} (holds : Holds batches rows)
    (passed : (Snapshot.group rows).findSome? (fun g => store.objection g.series g.samples) =
      none) :
    ∃ next, store.importSnapshot (.ok batches) = (.ok rows.length, next) ∧
      Replayed store next (Snapshot.group rows) := by
  obtain ⟨runs, asked⟩ := checkAll_snd store (Snapshot.group rows)
  have answer := checkAll_fst store (Snapshot.group rows)
  rw [passed] at answer
  have every : ∀ g ∈ Snapshot.group rows, ((store.askedAll runs).checkReplay g).1 = .ok () := by
    intro g member
    rw [checkReplay_fst, objection_askedAll, List.findSome?_eq_none_iff.1 passed g member]
  have questions := sound.replayed_askedAll runs
  obtain ⟨next, replayed, taken⟩ := replayAll_of_passed _ questions.sound _ every
  refine ⟨next, ?_, questions.trans taken⟩
  rw [importSnapshot_of_holds store holds]
  rcases checked : store.checkAll (Snapshot.group rows) with ⟨outcome, middle⟩
  rw [checked] at answer asked
  simp only at answer asked
  subst answer asked
  simp only [andThen, replayed, (Snapshot.rowsOf_group_perm rows).length_eq]

/-- A snapshot that has been imported can be imported again, and the same runs are known then. -/
theorem Sound.importSnapshot_again {store first : Store ρ σ} (sound : store.Sound)
    {read : Except Failure (List Batch)} {n : Nat}
    (taken : store.importSnapshot read = (.ok n, first)) :
    ∃ second, first.importSnapshot read = (.ok n, second) ∧
      ∀ run, second.knows run = first.knows run := by
  obtain ⟨batches, rfl, holds⟩ := holds_of_imported (congrArg Prod.fst taken)
  cases objected : (Snapshot.group (rowsRead (.ok batches))).findSome? fun g =>
      store.objection g.series g.samples with
  | some f =>
    obtain ⟨runs, refused⟩ := importSnapshot_of_objection store holds objected
    rw [refused] at taken
    cases taken
  | none =>
    obtain ⟨next, imported, replayed⟩ := importSnapshot_of_no_objection store sound holds objected
    rw [imported] at taken
    cases taken
    have still := objected
    simp only [← replayed.objection_eq] at still
    obtain ⟨second, again, more⟩ := importSnapshot_of_no_objection first replayed.sound holds still
    refine ⟨second, again, fun run => ?_⟩
    rw [Bool.eq_iff_iff]
    refine (more.registration.contains run).trans (or_iff_left_of_imp ?_)
    rw [replayed.registration.isOwn]
    exact fun enrolled => (replayed.registration.contains run).2 (Or.inr enrolled)

/-- What importing a snapshot can do: ask the roster and nothing else, or take in every row. -/
inductive ImportOutcome (store : Store ρ σ) (read : Except Failure (List Batch)) :
    Except Failure Nat × Store ρ σ → Prop where
  | refused (f : Failure) (runs : List String) :
    ImportOutcome store read (.error f, store.askedAll runs)
  | taken {registration : Registration ρ} {slots : Slots}
    (extended : Extends store { store with registration, slots } (rowsRead read)) :
    ImportOutcome store read (.ok (rowsRead read).length, { store with registration, slots })

theorem importSnapshot_outcome (store : Store ρ σ) (sound : store.Sound)
    (read : Except Failure (List Batch)) :
    ImportOutcome store read (store.importSnapshot read) := by
  cases read with
  | error f => exact .refused f []
  | ok batches =>
    cases parsed : batches.mapM Batch.rows with
    | error fault =>
      simp only [importSnapshot, importBatches, Snapshot.histories_of_fault parsed]
      exact .refused _ []
    | ok parts =>
      have holds : Holds batches (rowsRead (.ok batches)) := by
        refine ⟨parts, parsed, ?_⟩
        simp only [rowsRead, parsed]
      cases objected : (Snapshot.group (rowsRead (.ok batches))).findSome? fun g =>
          store.objection g.series g.samples with
      | some f =>
        obtain ⟨runs, refused⟩ := importSnapshot_of_objection store holds objected
        rw [refused]
        exact .refused f runs
      | none =>
        obtain ⟨next, taken, replayed⟩ :=
          importSnapshot_of_no_objection store sound holds objected
        obtain ⟨registration, slots, rfl⟩ := replayed.rest
        rw [taken]
        refine .taken (extends_of_group rfl replayed.slots fun g member => ?_)
        rw [checkReplay_fst, List.findSome?_eq_none_iff.1 objected g member]

end Store

end RunMetrics

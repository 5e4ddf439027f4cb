import RunMetrics.Proofs.LogbookMirror
import RunMetrics.Proofs.StoreViews

/-!
Rebuilding a store from its logbook. Replaying what the logbook lists, metric by metric and in any
order, gives a fresh store the histories of the one that wrote it; summaries, keys and rows follow from
the histories.
-/

set_option autoImplicit false

namespace RunMetrics

open Snapshot (Row samplesOf)

namespace Logbook

/-- The rows of a metric. -/
def rowsOf (l : Logbook) (series : Series) : List Row :=
  (l.log series).map fun s => ⟨series.run, s⟩

/-- Everything that is held may be replayed. -/
structure Replayable (l : Logbook) (allowNegative : Bool) : Prop where
  keyed : ∀ series, ∀ s ∈ l.log series, s.key = series.key
  valid : ∀ series, ∀ s ∈ l.log series, s.check allowNegative = .ok ()

theorem Replayable.series_of_mem {l : Logbook} {allowNegative : Bool}
    (replayable : l.Replayable allowNegative) {series : Series} {row : Row}
    (member : row ∈ l.rowsOf series) : row.series = series := by
  obtain ⟨s, held, rfl⟩ := List.mem_map.1 member
  rw [Row.series, replayable.keyed series s held]

/-- Each metric of a list without repetitions brings its own samples. -/
theorem Replayable.samplesOf_flatMap {l : Logbook} {allowNegative : Bool}
    (replayable : l.Replayable allowNegative) (series : Series) {order : List Series}
    (distinct : order.Nodup) :
    samplesOf series (order.flatMap l.rowsOf) = if series ∈ order then l.log series else [] := by
  induction order with
  | nil => rfl
  | cons head rest ih =>
    obtain ⟨absent, distinct⟩ := List.nodup_cons.1 distinct
    rw [List.flatMap_cons, Snapshot.samplesOf_append, ih distinct]
    by_cases same : series = head
    · subst same
      rw [Snapshot.samplesOf_eq_map fun row => replayable.series_of_mem, if_neg absent,
        if_pos List.mem_cons_self, List.append_nil, rowsOf, List.map_map]
      exact List.map_id _
    · rw [Snapshot.samplesOf_eq_nil, List.nil_append]
      · simp only [List.mem_cons, same, false_or]
      · intro row member there
        exact same (there.symm.trans (replayable.series_of_mem member))

end Logbook

namespace Store

variable {ρ : Type}

/-- What a store holds in its slots it may replay. -/
theorem Mirrored.replayable {store : Store ρ Logbook} (mirrored : store.Mirrored)
    (sound : store.Sound) {allowNegative : Bool}
    (valid : ∀ series, ∀ s ∈ (store.slot series).history.samples,
      s.check allowNegative = .ok ()) : store.journal.Replayable allowNegative := by
  refine ⟨fun series s held => ?_, fun series s held => ?_⟩
  · rw [mirrored.log] at held
    have here := sound.slot series
    exact (History.keyed _ s held).trans here.key
  · rw [mirrored.log] at held
    exact valid series s held

theorem Mirrored.mem_order_iff {store : Store ρ Logbook} (mirrored : store.Mirrored)
    {order : List Series} (all : order.Perm store.journal.series) (series : Series) :
    series ∈ order ↔ (store.slot series).history.samples ≠ [] := by
  rw [all.mem_iff, mirrored.tight.mem_series_iff, mirrored.log]
  rfl

/-- Slots that have grown by all that the logbook lists are those that the logbook mirrors. -/
theorem Mirrored.slotAt_eq {store : Store ρ Logbook} (mirrored : store.Mirrored)
    (sound : store.Sound) {allowNegative : Bool}
    (replayable : store.journal.Replayable allowNegative) {order : List Series}
    (all : order.Perm store.journal.series) {slots : Slots}
    (grown : Slots.Grown Table.empty slots (order.flatMap store.journal.rowsOf)) (series : Series) :
    slots.slotAt series = store.slot series := by
  have distinct : order.Nodup := all.nodup_iff.2 (Table.nodup_keys store.journal.logs)
  apply (grown.sound.slotAt series).eq_of_samples_eq (Slots.Sound.slotAt sound series)
  rw [grown.samples, replayable.samplesOf_flatMap series distinct]
  change [] ++ (if series ∈ order then store.journal.log series else []) = _
  rw [List.nil_append]
  by_cases listed : series ∈ order
  · rw [if_pos listed, mirrored.log]
  · rw [if_neg listed]
    rw [mirrored.mem_order_iff all, not_not] at listed
    exact listed.symm

variable [Roster ρ]

/-- The calls that replay what the journal holds of metrics. -/
def replayCalls (order : List Series) : List (Event ρ) :=
  order.map fun series => .call (.replayJournal series.run series.key)

theorem replayJournal_of_replayable (store : Store ρ Logbook) (sound : store.Sound) {runs : RunSet}
    (own : store.registration = .own runs)
    (replayable : store.journal.Replayable store.settings.allowNegative) (series : Series) :
    ∃ slots, store.replayJournal series.run series.key =
        (.ok (store.journal.log series).length,
          { store with registration := .own (runs.register series.run).2, slots }) ∧
      Slots.Grown store.slots slots (store.journal.rowsOf series) := by
  obtain ⟨h, built⟩ := History.ofSamples_of_keyed series.run series.key
    (store.journal.log series) (replayable.keyed series)
  obtain ⟨sameRun, sameKey, sameSamples⟩ := History.ofSamples_eq_ok built
  have admitted : store.checkReplay h = (.ok (), store) := by
    have valid := (forM_eq_ok_iff (Sample.check store.settings.allowNegative) h.samples).2
      (sameSamples ▸ replayable.valid series)
    simp only [checkReplay, valid, own, Registration.isOwn, ↓reduceIte]
  obtain ⟨slots, replayed, grown⟩ :=
    replay_of_admitted store sound h (congrArg Prod.fst admitted)
  have loaded : Journal.load store.journal series.run series.key =
      (.ok (store.journal.log series), store.journal) := rfl
  have direct : store.replayJournal series.run series.key = store.replay h := by
    simp only [replayJournal, loaded, built]
  refine ⟨slots, ?_, ?_⟩
  · rw [direct, replayed]
    simp only [admitted, own, Registration.enrol, sameRun, History.size, sameSamples]
  · rw [Snapshot.rowsOf_singleton, sameRun, sameSamples] at grown
    exact grown

/-- Replaying from a logbook never fails, and grows the slots by all rows of the metrics. -/
theorem after_replayCalls (store : Store ρ Logbook) (sound : store.Sound) {runs : RunSet}
    (own : store.registration = .own runs)
    (replayable : store.journal.Replayable store.settings.allowNegative) (order : List Series) :
    ∃ known slots,
      store.after (replayCalls order) = { store with registration := .own known, slots } ∧
        store.replies (replayCalls order) =
          order.map (fun series => .ok (.count (store.journal.log series).length)) ∧
        Slots.Grown store.slots slots (order.flatMap store.journal.rowsOf) ∧
        ∀ run, known.contains run = true ↔
          runs.contains run = true ∨ ∃ series ∈ order, series.run = run := by
  induction order generalizing store runs with
  | nil =>
    refine ⟨runs, store.slots, ?_, rfl, Slots.Sound.grown sound, fun run => ?_⟩
    · rw [← own]
      rfl
    · simp
  | cons series rest ih =>
    obtain ⟨slots, replayed, grown⟩ :=
      replayJournal_of_replayable store sound own replayable series
    let next : Store ρ Logbook :=
      { store with registration := .own (runs.register series.run).2, slots }
    -- The logbook is the same as before, so the rest of it is still replayable.
    have nextOwn : next.registration = .own (runs.register series.run).2 := rfl
    obtain ⟨known, last, after, replies, others, contains⟩ :=
      ih next grown.sound nextOwn replayable
    have performed : store.perform (.replayJournal series.run series.key) =
        (.ok (.count (store.journal.log series).length), next) := by
      rw [perform, replayed]
      rfl
    refine ⟨known, last, ?_, ?_, ?_, fun run => ?_⟩
    · change (store.perform _).2.after (replayCalls rest) = _
      rw [performed]
      exact after
    · change (store.perform _).1 :: (store.perform _).2.replies (replayCalls rest) = _
      rw [performed, List.map_cons]
      exact congrArg _ replies
    · rw [List.flatMap_cons]
      exact grown.trans others
    · rw [contains run, RunSet.contains_register, List.exists_mem_cons_iff, or_comm (a := run = _),
        or_assoc, eq_comm (a := run)]

/-- The second store holds what the first one holds, and knows the runs that there is something of. -/
structure Rebuilt (store rebuilt : Store ρ Logbook) : Prop where
  sound : rebuilt.Sound
  journal : rebuilt.journal = store.journal
  slot : ∀ series, rebuilt.slot series = store.slot series
  knows : ∀ run, rebuilt.knows run = true ↔ ∃ key, (store.slot ⟨run, key⟩).history.samples ≠ []

theorem Mirrored.rebuild {store : Store ρ Logbook} (mirrored : store.Mirrored)
    (sound : store.Sound) (fresh : Settings)
    (valid : ∀ series, ∀ s ∈ (store.slot series).history.samples,
      s.check fresh.allowNegative = .ok ())
    {order : List Series} (all : order.Perm store.journal.series) :
    let start : Store ρ Logbook := empty fresh (.own RunSet.empty) store.journal
    Rebuilt store (start.after (replayCalls order)) ∧
      start.replies (replayCalls order) =
        order.map (fun series => .ok (.count (store.journal.log series).length)) := by
  intro start
  have own : start.registration = .own RunSet.empty := rfl
  have replayable : start.journal.Replayable fresh.allowNegative := mirrored.replayable sound valid
  obtain ⟨known, slots, after, replies, grown, contains⟩ :=
    after_replayCalls start (empty_sound fresh _ _) own replayable order
  rw [after]
  refine ⟨⟨grown.sound, rfl, mirrored.slotAt_eq sound replayable all grown, fun run => ?_⟩, replies⟩
  refine (contains run).trans ⟨?_, ?_⟩
  · rintro (impossible | ⟨series, listed, rfl⟩)
    · cases impossible
    · exact ⟨series.key, (mirrored.mem_order_iff all series).1 listed⟩
  · rintro ⟨key, some_held⟩
    exact Or.inr ⟨⟨run, key⟩, (mirrored.mem_order_iff all _).2 some_held, rfl⟩

/-- A logbook that started empty and that one store has written, through recording alone, holds the
histories of that store. Replaying its metrics in any order into a fresh store never fails, leaves the
logbook as it is, and gives a store that knows the runs with samples and shows of them what the first
one shows. A store that registers runs itself still knows all of these. -/
theorem rebuilt_from_logbook (settings fresh : Settings) (registration : Registration ρ)
    (capacity : Option UInt64) (events : List (Event ρ))
    (recorded : ∀ call, .call call ∈ events → call.replays = false)
    (same : fresh.allowNegative = settings.allowNegative) (order : List Series)
    (all : order.Perm
      ((empty settings registration (Logbook.empty capacity)).after events).journal.series) :
    let store := (empty settings registration (Logbook.empty capacity)).after events
    let start : Store ρ Logbook := empty fresh (.own RunSet.empty) store.journal
    let rebuilt := start.after (replayCalls order)
    (∀ run key, store.knows run = true →
      ∃ h, store.history run key = .ok h ∧
        Journal.load store.journal run key = (.ok h.samples, store.journal)) ∧
      start.replies (replayCalls order) =
        order.map (fun series => .ok (.count (store.journal.log series).length)) ∧
      rebuilt.journal = store.journal ∧
      (∀ run, rebuilt.knows run = true ↔
        ∃ key, (store.slot ⟨run, key⟩).history.samples ≠ []) ∧
      ((∃ runs, registration = .own runs) →
        ∀ run, rebuilt.knows run = true → store.knows run = true) ∧
      (∀ run, rebuilt.knows run = true → store.knows run = true →
        (∀ key, rebuilt.snapshot run key = store.snapshot run key) ∧
          rebuilt.keys run = store.keys run ∧ rebuilt.histories run = store.histories run ∧
          rebuilt.rows run = store.rows run ∧
          ∃ first second, rebuilt.overview run = .ok first ∧ store.overview run = .ok second ∧
            ∀ projection, first.samples projection = second.samples projection) := by
  intro store start rebuilt
  have sound : store.Sound := after_sound settings registration (Logbook.empty capacity) events
  have mirrored : store.Mirrored := after_mirrored settings registration capacity events recorded
  have valid := valid_of_slot settings registration (Logbook.empty capacity) events
  rw [← same] at valid
  obtain ⟨rebuild, replies⟩ := mirrored.rebuild sound fresh valid all
  refine ⟨?_, replies, rebuild.journal, rebuild.knows, ?_, ?_⟩
  · intro run key registered
    refine ⟨(store.slot ⟨run, key⟩).history, ?_, ?_⟩
    · rw [history_eq, answerFor_of_known registered]
    · exact congrArg (fun samples => (Except.ok samples, store.journal)) (mirrored.log ⟨run, key⟩)
  · rintro ⟨runs, rfl⟩ run there
    have housed : store.Housed :=
      after_housed settings runs (Logbook.empty capacity) events recorded
    obtain ⟨key, some_held⟩ := (rebuild.knows run).1 there
    exact housed.known ⟨run, key⟩ some_held
  · intro run there registered
    exact views_eq_of_run_eq rebuild.sound sound (fun key => rebuild.slot ⟨run, key⟩) there registered

/-- The logbook is full in the middle of a batch; its metrics are replayed in descending order. -/
theorem rebuilt_after_full_logbook :
    let store : Store RunSet Logbook :=
      (empty {} (.own RunSet.empty) (Logbook.empty (some 2))).after
        [.call (.register "train"), .call (.register "test"),
          .call (.record "test" ⟨"loss", ⟨0⟩, 0, 1⟩),
          .call (.recordAll "train" [⟨"loss", ⟨1⟩, 0, 1⟩, ⟨"loss", ⟨2⟩, 0, 2⟩])]
    let order : List Series := [⟨"train", "loss"⟩, ⟨"test", "loss"⟩]
    let start : Store RunSet Logbook := empty {} (.own RunSet.empty) store.journal
    let rebuilt := start.after (replayCalls order)
    start.replies (replayCalls order) = [.ok (.count 1), .ok (.count 1)] ∧
      rebuilt.rows "train" = store.rows "train" := by
  intro store order start rebuilt
  have recorded : ∀ call, (.call call : Event RunSet) ∈
      [.call (.register "train"), .call (.register "test"),
        .call (.record "test" ⟨"loss", ⟨0⟩, 0, 1⟩),
        .call (.recordAll "train" [⟨"loss", ⟨1⟩, 0, 1⟩, ⟨"loss", ⟨2⟩, 0, 2⟩])] →
      call.replays = false := by
    intro call member
    simp only [List.mem_cons, Event.call.injEq, List.not_mem_nil, or_false] at member
    rcases member with rfl | rfl | rfl | rfl <;> rfl
  have listed : store.journal.series = [⟨"test", "loss"⟩, ⟨"train", "loss"⟩] := by
    decide
  have all : order.Perm store.journal.series := by
    rw [listed]
    exact List.Perm.swap _ _ []
  obtain ⟨-, replies, -, -, -, views⟩ :=
    rebuilt_from_logbook {} {} (.own RunSet.empty) (some 2) _ recorded rfl order all
  obtain ⟨-, -, -, rows, -⟩ := views "train" (by decide) (by decide)
  refine ⟨?_, rows⟩
  rw [replies]
  decide

end Store

end RunMetrics

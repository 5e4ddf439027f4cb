import RunMetrics.Proofs.JournalStates
import RunMetrics.Proofs.RunProjections
import RunMetrics.Proofs.SnapshotImport

/-!
Samples that are submitted again. A batch that failed in the middle leaves its first samples behind; if
it is then submitted whole, every summary is that of one submission, since no projection changes when
it meets the same samples again from the start. So it is when a snapshot is imported twice.
-/

set_option autoImplicit false

namespace RunMetrics

open Snapshot (rowsRead samplesOf)

/-- Rows that went in up to some point, and then from the start and all of them, leave the summaries of
rows that went in once. -/
theorem Slots.Grown.summary_eq {before again once : Slots} {part rows : List Snapshot.Row}
    (start : part <+: rows) (left : Grown before again (part ++ rows))
    (right : Grown before once rows) (series : Series) :
    (again.slotAt series).summary = (once.slotAt series).summary := by
  rw [(left.sound.slotAt series).summary, (right.sound.slotAt series).summary, History.summary?,
    History.summary?, left.samples, right.samples, Snapshot.samplesOf_append, ← List.append_assoc]
  exact Summary.ofSamples?_resumed _ (Snapshot.isPrefix_samplesOf series start)

namespace Store

variable {ρ σ τ : Type}

/-! ### Stores with the same summaries -/

/-- What is shown of a run from its summaries is the same. -/
theorem Sound.views_eq {a : Store ρ σ} {b : Store ρ τ} (left : a.Sound) (right : b.Sound)
    {run : String} (same : ∀ key, (a.slot ⟨run, key⟩).summary = (b.slot ⟨run, key⟩).summary) :
    (a.views run).rows = (b.views run).rows ∧
      ∀ p, (a.views run).overview.samples p = (b.views run).overview.samples p := by
  constructor
  · apply eq_of_mem_iff (left.increasing_views_rows run) (right.increasing_views_rows run)
    intro row
    rw [left.mem_views_rows_iff, right.mem_views_rows_iff, same]
  · intro p
    apply Table.ext_get?
    intro key
    rw [left.get?_samples, right.get?_samples, same]

variable [Roster ρ]

/-- Two stores show of a run the same summaries, rows and projections. -/
structure SameSummaries (a : Store ρ σ) (b : Store ρ τ) (run : String) : Prop where
  summary : ∀ key, a.summary run key = b.summary run key
  rows : a.rows run = b.rows run
  overview : ∃ first second, a.overview run = .ok first ∧ b.overview run = .ok second ∧
    ∀ p, first.samples p = second.samples p

theorem Sound.sameSummaries {a : Store ρ σ} {b : Store ρ τ} (left : a.Sound) (right : b.Sound)
    {run : String} (same : ∀ key, (a.slot ⟨run, key⟩).summary = (b.slot ⟨run, key⟩).summary)
    (here : a.knows run = true) (there : b.knows run = true) : SameSummaries a b run := by
  have first := left.shows here
  have second := right.shows there
  obtain ⟨rows, samples⟩ := left.views_eq right same
  refine ⟨fun key => ?_, ?_, _, _, first.overview, second.overview, samples⟩
  · rw [first.summary, second.summary]
    exact congrArg Except.ok (same key)
  · rw [first.rows, second.rows, rows]

/-! ### Batches -/

/-- The store over another journal. -/
def withJournal (store : Store ρ σ) (journal : τ) : Store ρ τ :=
  ⟨store.settings, store.registration, journal, store.slots, store.params, store.tags⟩

variable [Journal τ]

theorem Sound.extends_of_recordAll {store next : Store ρ τ} (sound : store.Sound) {run : String}
    {samples : List Sample} {n : Nat} (success : store.recordAll run samples = (.ok n, next)) :
    n = samples.length ∧ Extends store next (samples.map fun s => ⟨run, s⟩) := by
  obtain ⟨length, rows⟩ := recordAll_eq_ok store run samples (congrArg Prod.fst success)
  have extended := recordAll_extends store sound run samples
  rw [rows, success] at extended
  exact ⟨length, extended⟩

/-- Valid samples of a known run are all recorded, if the journal takes them. -/
theorem recordAll_of_takes {store : Store ρ τ} (sound : store.Sound) {run : String}
    (vouches : store.registration.Vouches run) {samples : List Sample}
    (valid : ∀ s ∈ samples, s.check store.settings.allowNegative = .ok ())
    (takes : Journal.Takes store.journal run samples) :
    ∃ next, store.recordAll run samples = (.ok samples.length, next) := by
  induction samples generalizing store with
  | nil => exact ⟨store, rfl⟩
  | cons s rest ih =>
    obtain ⟨taken, others⟩ := takes
    rw [List.forall_mem_cons] at valid
    obtain ⟨slots, recorded, grown⟩ := record_of_taken store sound run s valid.1 vouches.contains
      (Prod.ext taken rfl : Journal.append store.journal run s = (.ok (), _))
    let next : Store ρ τ :=
      { store.asked run with journal := (Journal.append store.journal run s).2, slots }
    have nextSound : next.Sound := grown.sound
    obtain ⟨last, all⟩ := ih nextSound (vouches.asked run) valid.2 others
    refine ⟨last, ?_⟩
    rw [recordAll_cons_of_ok recorded, all]
    rfl

theorem known_of_recordAll {store next : Store ρ τ} (sound : store.Sound) {run : String} {s : Sample}
    {rest : List Sample} {n : Nat} (success : store.recordAll run (s :: rest) = (.ok n, next)) :
    store.knows run = true := by
  have outcome := record_outcome store sound run s
  rw [recordAll_cons] at success
  generalize store.record run s = result at outcome success
  cases outcome with
  | taken _ known _ _ => exact known
  | _ => cases success

variable [Journal σ]

theorem Sound.summary_of_resubmitted {store failed done : Store ρ σ} {once : Store ρ τ} {journal : τ}
    (sound : store.Sound) {run : String} {samples : List Sample} {f : Failure} {m n : Nat}
    (first : store.recordAll run samples = (.error f, failed))
    (second : failed.recordAll run samples = (.ok n, done))
    (single : (store.withJournal journal).recordAll run samples = (.ok m, once)) :
    n = m ∧ done.Sound ∧ once.Sound ∧
      ∀ series, (done.slot series).summary = (once.slot series).summary := by
  have part := recordAll_extends store sound run samples
  rw [first] at part
  have whole : (store.withJournal journal).Sound := sound
  obtain ⟨length, rest⟩ := part.sound.extends_of_recordAll second
  obtain ⟨size, all⟩ := whole.extends_of_recordAll single
  refine ⟨length.trans size.symm, rest.sound, all.sound, fun series => ?_⟩
  exact Slots.Grown.summary_eq (isPrefix_recordedRows store run samples) (part.trans rest).slots
    all.slots series

/-! ### The same runs -/

section Steady

variable [Roster.Steady ρ]

theorem knows_record {store : Store ρ τ} (sound : store.Sound) (run other : String) (s : Sample) :
    (store.record run s).2.knows other = store.knows other := by
  have asked : (store.registration.asked run).contains other = store.registration.contains other :=
    Registration.contains_asked store.registration run other
  have outcome := record_outcome store sound run s
  generalize store.record run s = result at outcome ⊢
  cases outcome with
  | invalid _ => rfl
  | unknown _ _ => exact asked
  | refused _ _ _ _ => exact asked
  | taken _ _ _ _ => exact asked

theorem knows_recordAll {store : Store ρ τ} (sound : store.Sound) (run other : String)
    (samples : List Sample) : (store.recordAll run samples).2.knows other = store.knows other := by
  refine recordAll_preserves (fun next => next.knows other = store.knows other) run ?_ store sound rfl
    samples
  intro next s nextSound same
  exact (knows_record nextSound run other s).trans same

theorem Sound.knows_of_resubmitted {store failed done : Store ρ σ} {once : Store ρ τ} {journal : τ}
    (sound : store.Sound) {run : String} {samples : List Sample} {f : Failure} {m n : Nat}
    (first : store.recordAll run samples = (.error f, failed))
    (second : failed.recordAll run samples = (.ok n, done))
    (single : (store.withJournal journal).recordAll run samples = (.ok m, once)) (other : String) :
    done.knows other = once.knows other := by
  have part := recordAll_extends store sound run samples
  have whole : (store.withJournal journal).Sound := sound
  have before := knows_recordAll sound run other samples
  have all := knows_recordAll whole run other samples
  rw [first] at part before
  have after := knows_recordAll part.sound run other samples
  rw [second] at after
  rw [single] at all
  exact (after.trans before).trans all.symm

/-- A batch that succeeds at all succeeds over a journal that takes everything. -/
theorem Sound.recordAll_withJournal {store failed done : Store ρ σ} (sound : store.Sound)
    {run : String} {samples : List Sample} {f : Failure} {n : Nat}
    (first : store.recordAll run samples = (.error f, failed))
    (second : failed.recordAll run samples = (.ok n, done)) :
    ∃ once, (store.withJournal Silent.mk).recordAll run samples = (.ok n, once) := by
  have part := recordAll_extends store sound run samples
  have knows := knows_recordAll sound run run samples
  rw [first] at part knows
  obtain ⟨length, rest⟩ := part.sound.extends_of_recordAll second
  have whole : (store.withJournal Silent.mk).Sound := sound
  have known : (store.withJournal Silent.mk).knows run = true := by
    cases samples with
    | nil => cases first
    | cons s others => exact knows.symm.trans (known_of_recordAll part.sound second)
  have valid : ∀ s ∈ samples, s.check store.settings.allowNegative = .ok () := by
    intro s member
    rw [← part.settings]
    exact rest.valid ⟨run, s⟩ (List.mem_map_of_mem member)
  rw [length]
  exact recordAll_of_takes whole ((Registration.vouches_iff _ run).2 known) valid
    (Silent.takes _ run samples)

end Steady

/-- Samples that were submitted in part and are submitted again whole are summarised as if they had been
submitted once. So if a batch fails in the middle and succeeds when it is submitted again, whatever the
journals did, the store shows the summaries, rows and projections that it would show after the batch had
succeeded at once; over a journal that takes everything it would have, if the roster is steady. A
snapshot that is imported twice leaves what it left the first time, but for the histories, which get its
samples twice; a steady roster lets it in twice. -/
theorem resubmission_changes_no_summary (settings : Settings) (registration : Registration ρ)
    (journal : σ) (other : τ) (events : List (Event ρ)) :
    let store := (empty settings registration journal).after events
    (∀ before part samples, part <+: samples →
      Summary.ofSamples? (before ++ part ++ samples) = Summary.ofSamples? (before ++ samples)) ∧
      (∀ run samples f failed n done, store.recordAll run samples = (.error f, failed) →
        failed.recordAll run samples = (.ok n, done) →
          (∀ m once, (store.withJournal other).recordAll run samples = (.ok m, once) →
            m = n ∧ (∀ shown, done.knows shown = true → once.knows shown = true →
              SameSummaries done once shown) ∧
              (Roster.Steady ρ → ∀ shown, done.knows shown = once.knows shown)) ∧
          (Roster.Steady ρ →
            ∃ once, (store.withJournal Silent.mk).recordAll run samples = (.ok n, once))) ∧
      (∀ read n first, store.importSnapshot read = (.ok n, first) →
        (∀ m second, first.importSnapshot read = (.ok m, second) →
          m = n ∧ (∀ shown, second.knows shown = true → first.knows shown = true →
            SameSummaries second first shown) ∧
            ∀ series, (second.slot series).history.samples =
              (first.slot series).history.samples ++ samplesOf series (rowsRead read)) ∧
          (Roster.Steady ρ → ∃ second, first.importSnapshot read = (.ok n, second) ∧
            ∀ shown, second.knows shown = first.knows shown)) := by
  intro store
  have sound : store.Sound := after_sound settings registration journal events
  refine ⟨fun before part samples start => Summary.ofSamples?_resumed before start, ?_, ?_⟩
  · intro run samples f failed n done first second
    refine ⟨fun m once single => ?_, fun steady => sound.recordAll_withJournal first second⟩
    obtain ⟨count, left, right, same⟩ := sound.summary_of_resubmitted first second single
    refine ⟨count.symm, fun shown here there => ?_, fun steady shown => ?_⟩
    · exact left.sameSummaries right (fun key => same ⟨shown, key⟩) here there
    · exact sound.knows_of_resubmitted first second single shown
  · intro read n first taken
    obtain ⟨length, once⟩ := importSnapshot_eq_ok sound taken
    refine ⟨fun m second again => ?_, fun steady => sound.importSnapshot_again taken⟩
    obtain ⟨size, twice⟩ := importSnapshot_eq_ok once.sound again
    refine ⟨size.trans length.symm, fun shown here there => ?_, twice.slots.samples⟩
    apply twice.sound.sameSummaries once.sound _ here there
    intro key
    exact Slots.Grown.summary_eq List.prefix_rfl (once.trans twice).slots once.slots ⟨shown, key⟩

/-- The journal refuses the second sample of a batch of two metrics, once. -/
theorem resubmission_after_refused_append :
    let batch : List Sample := [⟨"loss", ⟨0x4008000000000000⟩, 0, 1⟩, ⟨"accuracy", .nan, 0, 1⟩,
      ⟨"loss", ⟨0x4000000000000000⟩, 0, 2⟩]
    let store : Store RunSet Scripted :=
      (empty {} (.own RunSet.empty) ⟨[1], [], none, 0⟩).after [.call (.register "run")]
    let failed := (store.recordAll "run" batch).2
    let done := (failed.recordAll "run" batch).2
    ∃ once, (store.withJournal Silent.mk).recordAll "run" batch = (.ok 3, once) ∧
      SameSummaries done once "run" ∧ (done.slot ⟨"run", "loss"⟩).history.size = 3 := by
  intro batch store failed done
  obtain ⟨-, batches, -⟩ := resubmission_changes_no_summary {}
    (.own RunSet.empty : Registration RunSet) (⟨[1], [], none, 0⟩ : Scripted) Silent.mk
    [.call (.register "run")]
  have first : store.recordAll "run" batch =
      (.error (.journal "scripted failure of append 1"), failed) :=
    Prod.ext (by decide) rfl
  have second : failed.recordAll "run" batch = (.ok 3, done) := Prod.ext (by decide) rfl
  obtain ⟨same, single⟩ := batches "run" batch _ failed 3 done first second
  obtain ⟨once, succeeded⟩ := single inferInstance
  obtain ⟨-, shown, knows⟩ := same 3 once succeeded
  have known : done.knows "run" = true := by decide
  exact ⟨once, succeeded, shown "run" known ((knows inferInstance "run").symm.trans known), by decide⟩

end Store

end RunMetrics

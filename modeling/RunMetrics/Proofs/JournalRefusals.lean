import RunMetrics.Proofs.FailedCalls
import RunMetrics.Proofs.ReplayAgreement

/-!
Failures of the journal. When the journal refuses a sample or cannot be read, the call that met the failure
changes nothing that the store shows, but for a batch: it keeps the samples before the refused one, and
from there on changes nothing.
-/

set_option autoImplicit false

namespace RunMetrics

namespace Store

variable {ρ σ : Type} [Roster ρ] [Journal σ]

/-- Nothing that is shown has changed, unless the roster answers differently after it was asked. -/
structure Unseen (before after : Store ρ σ) : Prop where
  consulting : SameReads (before.consulting after.registration) after
  steady : Roster.Steady ρ → SameReads before after

theorem Idle.unseen {before after : Store ρ σ} (idle : Idle before after) (sound : before.Sound) :
    Unseen before after where
  consulting := (idle.looks_of_contains sound fun _ => rfl).sameReads
  steady := fun _ => (idle.looks sound).sameReads

/-- A batch fails at its first sample that is refused, when those before it have been recorded. -/
theorem recordAll_eq_error {store : Store ρ σ} {run : String} {samples : List Sample} {f : Failure}
    (failed : (store.recordAll run samples).1 = .error f) :
    ∃ earlier s later middle, samples = earlier ++ s :: later ∧
      store.recordAll run earlier = (.ok earlier.length, middle) ∧
      middle.record run s = (.error f, (store.recordAll run samples).2) := by
  induction samples generalizing store with
  | nil => cases failed
  | cons s rest ih =>
    rcases recorded : store.record run s with ⟨g | _, next⟩
    · rw [recordAll_cons_of_error recorded] at failed ⊢
      cases failed
      exact ⟨[], s, rest, store, rfl, rfl, recorded⟩
    · rw [recordAll_cons_of_ok recorded] at failed ⊢
      obtain ⟨earlier, t, later, middle, rfl, part, refused⟩ := ih (map_eq_error failed)
      refine ⟨s :: earlier, t, later, middle, rfl, ?_, refused⟩
      rw [recordAll_cons_of_ok recorded, part]
      rfl

/-- When the journal refuses a sample, or fails to load, every view is as before the call. When it refuses a
sample of a batch, the samples before that one have been recorded, as the batch of them alone records them,
and every view is as after them. -/
theorem journal_failures_change_no_view (settings : Settings) (registration : Registration ρ)
    (journal : σ) (events : List (Event ρ)) (run text : String) :
    let store := (empty settings registration journal).after events
    (∀ s, (store.record run s).1 = .error (.journal text) → Unseen store (store.record run s).2) ∧
      (∀ key, (store.replayJournal run key).1 = .error (.journal text) →
        Unseen store (store.replayJournal run key).2) ∧
      ∀ samples, (store.recordAll run samples).1 = .error (.journal text) →
        ∃ earlier s later middle, samples = earlier ++ s :: later ∧
          store.recordAll run earlier = (.ok earlier.length, middle) ∧
          (∀ series, (middle.slot series).history.samples = (store.slot series).history.samples ++
            Snapshot.samplesOf series (earlier.map fun t => ⟨run, t⟩)) ∧
          middle.record run s = (.error (.journal text), (store.recordAll run samples).2) ∧
          Unseen middle (store.recordAll run samples).2 := by
  intro store
  have sound : store.Sound := after_sound settings registration journal events
  refine ⟨fun s failed => ?_, fun key failed => ?_, fun samples failed => ?_⟩
  · exact (record_idle store sound run s failed).unseen sound
  · exact (replayJournal_idle store sound run key failed).unseen sound
  · obtain ⟨earlier, s, later, middle, split, recorded, refused⟩ := recordAll_eq_error failed
    obtain ⟨-, extended⟩ := sound.extends_of_recordAll recorded
    have idle := record_idle middle extended.sound run s (congrArg Prod.fst refused)
    rw [refused] at idle
    exact ⟨earlier, s, later, middle, split, recorded, extended.slots.samples, refused,
      idle.unseen extended.sound⟩

/-- A logbook with room for one sample refuses the second one of a batch. -/
theorem views_after_refused_batch :
    let loss (step : Int64) : Sample := ⟨"loss", ⟨0⟩, 0, step⟩
    let store : Store RunSet Logbook :=
      (empty {} (.own RunSet.empty) (Logbook.empty (some 1))).after [.call (.register "run")]
    ∃ middle, store.recordAll "run" [loss 1] = (.ok 1, middle) ∧
      SameReads middle (store.recordAll "run" [loss 1, loss 2]).2 := by
  intro loss store
  obtain ⟨-, -, batches⟩ := journal_failures_change_no_view (ρ := RunSet) {} (.own RunSet.empty)
    (Logbook.empty (some 1)) [.call (.register "run")] "run"
    "sink full (1 samples), cannot append 'loss' for run run"
  obtain ⟨earlier, s, later, middle, split, recorded, -, refused, unseen⟩ :=
    batches [loss 1, loss 2] (by decide)
  cases earlier with
  | nil =>
    cases split
    cases recorded
    exact absurd (congrArg Prod.fst refused) (by decide)
  | cons first rest =>
    obtain ⟨rfl, others⟩ := List.cons.inj split
    rcases List.append_eq_singleton_iff.1 others.symm with ⟨rfl, -⟩ | ⟨-, impossible⟩
    · exact ⟨middle, recorded, unseen.steady inferInstance⟩
    · cases impossible

/-- A batch may fail because of its journal and still change what is shown. -/
theorem batch_keeps_samples_before_refusal :
    ¬ ∀ (journal : Logbook) (events : List (Event RunSet)) (run text : String) (samples : List Sample),
      let store := (empty {} (.own RunSet.empty) journal).after events
      (store.recordAll run samples).1 = .error (.journal text) →
        SameReads store (store.recordAll run samples).2 := by
  intro promise
  have kept := promise (Logbook.empty (some 1)) [.call (.register "run")] "run"
    "sink full (1 samples), cannot append 'loss' for run run"
    [⟨"loss", ⟨0⟩, 0, 1⟩, ⟨"loss", ⟨0⟩, 0, 2⟩] (by decide) (.keys "run") rfl
  exact absurd kept (by decide)

end Store

end RunMetrics

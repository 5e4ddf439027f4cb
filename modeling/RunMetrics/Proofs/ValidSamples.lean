import RunMetrics.Proofs.AppendLog
import RunMetrics.Proofs.SummaryDrift

/-!
Only valid samples are ever in a history, whoever brought them: a caller, a journal that is read back
or a snapshot. The rules are about keys, times and steps; no value is a reason to refuse a sample.
-/

set_option autoImplicit false

namespace RunMetrics

namespace Sample

/-- A valid sample has a key and, unless negative numbers are allowed, no negative ones. -/
theorem check_eq_ok_iff (allowNegative : Bool) (s : Sample) :
    s.check allowNegative = .ok () ↔
      s.key ≠ "" ∧ (allowNegative = true ∨ 0 ≤ s.timestamp ∧ 0 ≤ s.step) := by
  unfold check
  by_cases unnamed : s.key = ""
  · simp [unnamed]
  · rw [if_neg unnamed]
    cases allowNegative with
    | true => simp [unnamed]
    | false =>
      rw [← Int64.not_lt, ← Int64.not_lt]
      by_cases early : s.timestamp < 0 <;> by_cases below : s.step < 0 <;>
        simp [unnamed, early, below]

end Sample

namespace Store

variable {ρ σ : Type} [Roster ρ] [Journal σ]

theorem valid_of_get? (settings : Settings) (registration : Registration ρ) (journal : σ)
    (events : List (Event ρ)) {series : Series} {slot : Slot}
    (held : ((empty settings registration journal).after events).slots.get? series = some slot)
    {s : Sample} (member : s ∈ slot.history.samples) :
    s.check settings.allowNegative = .ok () := by
  apply valid_of_slot settings registration journal events series
  rw [Store.slot, held]
  exact member

/-- A sample that is valid goes where the journal says; if the journal takes it, it is kept. -/
theorem record_of_valid {store : Store ρ σ} (sound : store.Sound) {run : String} {s : Sample}
    (valid : s.check store.settings.allowNegative = .ok ()) (known : store.knows run = true)
    (taken : (Journal.append store.journal run s).1 = .ok ()) :
    (store.record run s).1 = .ok () ∧
      ((store.record run s).2.slot ⟨run, s.key⟩).history.samples =
        (store.slot ⟨run, s.key⟩).history.samples ++ [s] := by
  have accepted := sound.record_of_taken_eq_ok valid known taken
  have extended := record_extends store sound run s
  rw [accepted] at extended
  refine ⟨accepted, (extended.slots.samples ⟨run, s.key⟩).trans ?_⟩
  exact congrArg _ (Snapshot.samplesOf_singleton_self ⟨run, s⟩)

/-- A refusal that is not the journal's own is for the key, the time or the step, so that it would be
the same with any other value. -/
theorem refusal_of_record {store : Store ρ σ} (sound : store.Sound) {run : String} {s : Sample}
    {f : Failure} (failed : (store.record run s).1 = .error f) (refusal : f.isRefusal = true) :
    s.check store.settings.allowNegative = .error f ∨
      s.check store.settings.allowNegative = .ok () ∧ store.knows run = true ∧
        (Journal.append store.journal run s).1 = .error f := by
  have outcome := record_outcome store sound run s
  generalize store.record run s = result at outcome failed
  cases outcome with
  | invalid invalid =>
    cases failed
    exact Or.inl invalid
  | unknown valid unknown =>
    cases failed
    cases refusal
  | refused valid known refused grown =>
    cases failed
    refine Or.inr ⟨valid, known, ?_⟩
    rw [refused]
  | taken valid known taken grown => cases failed

/-- After any calls, whatever the journal has answered when it was read back and whatever rows the
snapshots had, every sample in every history has a key and, unless negative numbers are allowed, no
negative time or step. A sample with a key and such a time and step is valid with every value: if its
run is known, recording it does what the journal says, and a sample that the journal takes is kept as
it is. Recording refuses a sample, if the journal does not, only if every other value in its place
would be refused likewise. -/
theorem no_invalid_sample_enters (settings : Settings) (registration : Registration ρ) (journal : σ)
    (events : List (Event ρ)) :
    let store := (empty settings registration journal).after events
    (∀ series slot, store.slots.get? series = some slot → ∀ s ∈ slot.history.samples,
      s.key ≠ "" ∧ (settings.allowNegative = false → 0 ≤ s.timestamp ∧ 0 ≤ s.step)) ∧
      (∀ run key h, store.history run key = .ok h → ∀ s ∈ h.samples,
        s.key ≠ "" ∧ (settings.allowNegative = false → 0 ≤ s.timestamp ∧ 0 ≤ s.step)) ∧
      (∀ run (s : Sample), s.key ≠ "" →
        (settings.allowNegative = false → 0 ≤ s.timestamp ∧ 0 ≤ s.step) → ∀ value : Binary64,
          let given : Sample := { s with value }
          let answer := (Journal.append store.journal run given).1
          (store.knows run = false → (store.record run given).1 = .error (.unknownRun run)) ∧
            (store.knows run = true → (store.record run given).1 = answer) ∧
            (store.knows run = true → answer = .ok () →
              ((store.record run given).2.slot ⟨run, s.key⟩).history.samples =
                (store.slot ⟨run, s.key⟩).history.samples ++ [given])) ∧
      (∀ run s f, (store.record run s).1 = .error f → f.isRefusal = true →
        (∀ value : Binary64, (store.record run { s with value }).1 = .error f) ∨
          store.knows run = true ∧ (Journal.append store.journal run s).1 = .error f) := by
  intro store
  have sound : store.Sound := after_sound settings registration journal events
  obtain ⟨rows, extended⟩ :=
    after_extends _ (empty_sound settings registration journal) events
  have same : store.settings = settings := extended.settings
  have rules (s : Sample) : s.check settings.allowNegative = .ok () ↔
      s.key ≠ "" ∧ (settings.allowNegative = false → 0 ≤ s.timestamp ∧ 0 ≤ s.step) := by
    rw [Sample.check_eq_ok_iff]
    cases settings.allowNegative <;> simp
  refine ⟨?_, ?_, ?_, ?_⟩
  · intro series slot held s member
    exact (rules s).1 (valid_of_get? settings registration journal events held member)
  · intro run key h shown s member
    rw [history_eq, answerFor] at shown
    split at shown
    · cases shown
      exact (rules s).1 (valid_of_slot settings registration journal events ⟨run, key⟩ s member)
    · cases shown
  · intro run s named natural value given answer
    have valid : given.check store.settings.allowNegative = .ok () := by
      rw [same]
      exact (rules s).2 ⟨named, natural⟩
    refine ⟨fun unknown => ?_, fun known => ?_, fun known taken => ?_⟩
    · rw [record_of_unknown store run given valid unknown]
    · exact (record_of_known store sound run given valid known).1
    · exact (record_of_valid sound valid known taken).2
  · intro run s f failed refusal
    rcases refusal_of_record sound failed refusal with invalid | ⟨-, known, refused⟩
    · refine Or.inl fun value => ?_
      rw [record_of_invalid store run { s with value } invalid]
    · exact Or.inr ⟨known, refused⟩

/-- The journal holds a negative time when it is read back; NaN with a payload is recorded, and so would
the least subnormal be. -/
theorem histories_beside_invalid_stock :
    let loss (value : Binary64) (timestamp : Int64) : Sample := ⟨"loss", value, timestamp, 0⟩
    let store : Store RunSet Scripted :=
      (empty {} (.own RunSet.empty) ⟨[], [loss ⟨0⟩ (-1)], none, 0⟩).after
        [.call (.register "run"), .call (.record "run" (loss ⟨0x7ff8000000000001⟩ 0)),
          .call (.replayJournal "run" "loss")]
    ∃ h, store.history "run" "loss" = .ok h ∧ h.samples = [loss ⟨0x7ff8000000000001⟩ 0] ∧
      (∀ s ∈ h.samples, 0 ≤ s.timestamp ∧ 0 ≤ s.step) ∧
      (store.record "run" { loss ⟨0⟩ 0 with value := ⟨1⟩ }).1 = .ok () := by
  intro loss store
  obtain ⟨-, shown, kept, -⟩ := no_invalid_sample_enters {} (.own RunSet.empty : Registration RunSet)
    (⟨[], [loss ⟨0⟩ (-1)], none, 0⟩ : Scripted)
    [.call (.register "run"), .call (.record "run" (loss ⟨0x7ff8000000000001⟩ 0)),
      .call (.replayJournal "run" "loss")]
  have listed : store.history "run" "loss" =
      .ok ⟨"run", "loss", [loss ⟨0x7ff8000000000001⟩ 0], by decide⟩ := by
    decide
  have recorded := (kept "run" (loss ⟨0⟩ 0) (by decide) (by decide) ⟨1⟩).2.1 (by decide)
  have taken : (Journal.append store.journal "run" { loss ⟨0⟩ 0 with value := ⟨1⟩ }).1 = .ok () := by
    decide
  exact ⟨_, listed, rfl, fun s member => (shown _ _ _ listed s member).2 rfl, recorded.trans taken⟩

end Store

end RunMetrics

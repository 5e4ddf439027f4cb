import RunMetrics.Proofs.DeclaredSummary
import RunMetrics.Proofs.RegistrationSteps

/-!
A store only moves forward. Histories grow at their ends; the latest sample is never replaced by an
earlier one, and an extreme only by a sample whose value is strictly beyond its own. Nothing that has
once been shown of a run goes away, as long as the run is not forgotten.
-/

set_option autoImplicit false

namespace RunMetrics

namespace Sample

/-- A sample that is kept gives way only to one strictly farther out. -/
theorem foldl_farther_some {beats : Binary64 → Binary64 → Bool} (outward : Outward beats)
    (incumbent : Sample) (samples : List Sample) :
    ∃ best, samples.foldl (farther beats) (some incumbent) = some best ∧
      (best = incumbent ∨ beats best.value incumbent.value = true) := by
  induction samples generalizing incumbent with
  | nil => exact ⟨incumbent, rfl, Or.inl rfl⟩
  | cons s rest ih =>
    rw [List.foldl_cons, farther]
    split
    · rename_i stepped
      simp only [outdoes, Option.map_some, Option.all_some, Bool.and_eq_true] at stepped
      obtain ⟨best, kept, same | beyond⟩ := ih s
      · exact ⟨best, kept, Or.inr (same ▸ stepped.2)⟩
      · exact ⟨best, kept, Or.inr (outward.transitive _ _ _ beyond stepped.2)⟩
    · exact ih incumbent

/-- An extreme of samples is still one of more samples, or one strictly farther out is. -/
theorem foldl_farther_append {beats : Binary64 → Binary64 → Bool} (outward : Outward beats)
    {samples : List Sample} (more : List Sample) {incumbent : Sample}
    (kept : samples.foldl (farther beats) none = some incumbent) :
    ∃ best, (samples ++ more).foldl (farther beats) none = some best ∧
      (best = incumbent ∨ beats best.value incumbent.value = true) := by
  rw [List.foldl_append, kept]
  exact foldl_farther_some outward incumbent more

theorem latest?_append {samples : List Sample} (more : List Sample) {incumbent : Sample}
    (kept : latest? samples = some incumbent) :
    ∃ last, latest? (samples ++ more) = some last ∧ incumbent.notAfter last = true := by
  have met : incumbent ∈ samples ++ more := by
    rcases mem_of_foldl_later kept with impossible | member
    · cases impossible
    · exact List.mem_append_left more member
  obtain ⟨last, found, follows⟩ := exists_foldl_later none met
  exact ⟨last, found, by rw [← replaces_eq_notAfter, follows]⟩

end Sample

namespace Summary

/-- The later summary goes on from the earlier one: its latest sample is not earlier, and an extreme
that was there is there, either the same sample or one with a value strictly beyond. -/
structure Onward (before after : Summary) : Prop where
  latest : before.latest.notAfter after.latest = true
  lowest : ∀ low, before.lowest = some low → ∃ next, after.lowest = some next ∧
    next.value.atMost low.value = true ∧ (next ≠ low → next.value.less low.value = true)
  highest : ∀ high, before.highest = some high → ∃ next, after.highest = some next ∧
    high.value.atMost next.value = true ∧ (next ≠ high → high.value.less next.value = true)

theorem ofSamples?_append {samples : List Sample} (more : List Sample) {before : Summary}
    (made : ofSamples? samples = some before) :
    ∃ after, ofSamples? (samples ++ more) = some after ∧ before.Onward after := by
  obtain ⟨latest, lowest, highest⟩ := eq_of_ofSamples?_eq_some made
  obtain ⟨last, kept, follows⟩ := Sample.latest?_append more latest
  rw [ofSamples?, kept]
  refine ⟨_, rfl, follows, ?_, ?_⟩
  · intro low shown
    have number := (mem_of_get? (p := .lowest) made shown).2 (by decide)
    obtain ⟨next, found, rfl | beyond⟩ :=
      Sample.foldl_farther_append Sample.outward_less more (lowest.trans shown)
    · exact ⟨next, found, Binary64.atMost_self number, fun moved => absurd rfl moved⟩
    · exact ⟨next, found, Binary64.atMost_of_less beyond, fun _ => beyond⟩
  · intro high shown
    have number := (mem_of_get? (p := .highest) made shown).2 (by decide)
    obtain ⟨next, found, rfl | beyond⟩ :=
      Sample.foldl_farther_append Sample.outward_greater more (highest.trans shown)
    · exact ⟨next, found, Binary64.atMost_self number, fun moved => absurd rfl moved⟩
    · exact ⟨next, found, Binary64.atMost_of_less beyond, fun _ => beyond⟩

end Summary

/-- The later slot goes on from the earlier one: samples came in at the end, and the summary moved on. -/
structure Slot.Onward (before after : Slot) : Prop where
  history : before.history.samples <+: after.history.samples
  summary : ∀ shown, before.summary = some shown →
    ∃ next, after.summary = some next ∧ shown.Onward next

theorem Slots.Grown.onward {before after : Slots} {rows : List Snapshot.Row} (sound : before.Sound)
    (grown : Slots.Grown before after rows) (series : Series) :
    (before.slotAt series).Onward (after.slotAt series) := by
  have samples := grown.samples series
  refine ⟨⟨_, samples.symm⟩, fun shown here => ?_⟩
  rw [(sound.slotAt series).summary, History.summary?] at here
  rw [(grown.sound.slotAt series).summary, History.summary?, samples]
  exact Summary.ofSamples?_append _ here

namespace Store

variable {ρ σ : Type} [Roster ρ] [Journal σ]

/-- Whatever happens between, a history is a start of the later one, a summary stays and moves on, and
so does each of its extremes. That holds of every metric that the store keeps, and of what is shown of
every run that is known: no known run becomes unknown, if none is forgotten. -/
theorem state_only_moves_forward (settings : Settings) (registration : Registration ρ) (journal : σ)
    (earlier events : List (Event ρ))
    (remembers : ((empty settings registration journal).after earlier).Remembers events) :
    let store := (empty settings registration journal).after earlier
    let later := store.after events
    (∀ series, (store.slot series).Onward (later.slot series)) ∧
      (∀ run, store.knows run = true → later.knows run = true) ∧
      (∀ run key before, store.history run key = .ok before →
        ∃ after, later.history run key = .ok after ∧ after.run = before.run ∧
          after.key = before.key ∧ before.samples <+: after.samples) ∧
      ∀ run key before, store.summary run key = .ok (some before) →
        ∃ after, later.summary run key = .ok (some after) ∧ before.Onward after := by
  intro store later
  have sound : store.Sound := after_sound settings registration journal earlier
  have advance : Advance store later := remembers.after_advance sound
  have onward (series : Series) : (store.slot series).Onward (later.slot series) := by
    obtain ⟨rows, extended, -⟩ := advance.grown
    exact extended.slots.onward sound series
  -- An answer shows that the run was known, so it still is.
  have answered {α : Type} {run : String} {answer shown : α}
      (given : store.answerFor run answer = .ok shown) : answer = shown ∧ later.knows run = true := by
    unfold answerFor at given
    split at given
    · rename_i known
      exact ⟨Except.ok.inj given, advance.known run known⟩
    · cases given
  refine ⟨onward, advance.known, ?_, ?_⟩
  · intro run key before given
    rw [history_eq] at given
    obtain ⟨rfl, known⟩ := answered given
    have here := sound.slot ⟨run, key⟩
    have there := advance.sound.slot ⟨run, key⟩
    refine ⟨(later.slot ⟨run, key⟩).history, ?_, there.run.trans here.run.symm,
      there.key.trans here.key.symm, (onward ⟨run, key⟩).history⟩
    rw [history_eq, answerFor_of_known known]
  · intro run key before given
    rw [summary_eq] at given
    obtain ⟨shown, known⟩ := answered given
    obtain ⟨next, kept, moved⟩ := (onward ⟨run, key⟩).summary before shown
    refine ⟨next, ?_, moved⟩
    rw [summary_eq, answerFor_of_known known, kept]

/-- Late, NaN and refused samples after a negative zero, and a run that somebody adds to the roster. -/
theorem summary_after_late_samples :
    let loss (bits : UInt64) (step : Int64) : Sample := ⟨"loss", ⟨bits⟩, 0, step⟩
    let start : Store RunSet Logbook :=
      empty {} (.shared (RunSet.ofList ["run"])) (Logbook.empty (some 4))
    let store := start.after [.call (.record "run" (loss 0x8000000000000000 2))]
    let later := store.after [.call (.record "run" (loss 0 1)),
      .moved (RunSet.ofList ["run", "other"]), .call (.record "run" (loss 0x7ff8000000000000 3)),
      .call (.recordAll "run" [loss 0xbff0000000000000 3, loss 0xc000000000000000 4])]
    store.Remembers [.call (.record "run" (loss 0 1)),
      .moved (RunSet.ofList ["run", "other"]), .call (.record "run" (loss 0x7ff8000000000000 3)),
      .call (.recordAll "run" [loss 0xbff0000000000000 3, loss 0xc000000000000000 4])] ∧
      (∃ before after, store.summary "run" "loss" = .ok (some before) ∧
        later.summary "run" "loss" = .ok (some after) ∧ before.Onward after) ∧
      later.summary "run" "loss" = .ok (some ⟨loss 0xbff0000000000000 3,
        some (loss 0xbff0000000000000 3), some (loss 0x8000000000000000 2)⟩) := by
  intro loss start store later
  have remembers : store.Remembers [.call (.record "run" (loss 0 1)),
      .moved (RunSet.ofList ["run", "other"]), .call (.record "run" (loss 0x7ff8000000000000 3)),
      .call (.recordAll "run" [loss 0xbff0000000000000 3, loss 0xc000000000000000 4])] := by
    refine ⟨fun _ => RunSet.retentive, fun run known => ?_, trivial⟩
    have asked (r : Registration RunSet) (run : String) : r = .shared (RunSet.ofList ["run"]) →
        r.asked run = .shared (RunSet.ofList ["run"]) := by
      rintro rfl
      rfl
    have here : store.registration = .shared (RunSet.ofList ["run"]) :=
      kept_perform_of_asks asked start (.record "run" (loss 0x8000000000000000 2))
        (fun _ same => by cases same) rfl rfl
    have before : (store.perform (.record "run" (loss 0 1))).2.registration =
        .shared (RunSet.ofList ["run"]) :=
      kept_perform_of_asks asked store _ (fun _ same => by cases same) rfl here
    simp only [knows, step, before] at known ⊢
    exact (RunSet.contains_insert (RunSet.ofList ["run"]) "other" run).2 (Or.inr known)
  have shown : store.summary "run" "loss" = .ok (some ⟨loss 0x8000000000000000 2,
      some (loss 0x8000000000000000 2), some (loss 0x8000000000000000 2)⟩) := by
    decide
  obtain ⟨-, -, -, summaries⟩ := state_only_moves_forward {} (.shared (RunSet.ofList ["run"]))
    (Logbook.empty (some 4)) [.call (.record "run" (loss 0x8000000000000000 2))] _ remembers
  obtain ⟨after, still, onward⟩ := summaries "run" "loss" _ shown
  exact ⟨remembers, ⟨_, after, shown, still, onward⟩, by decide⟩

end Store

end RunMetrics

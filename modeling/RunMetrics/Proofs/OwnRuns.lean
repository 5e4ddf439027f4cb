import RunMetrics.Proofs.RetainedRuns

/-!
Runs of a store that registers them itself. It never forgets a run, and records samples for known runs
only, so it knows every run that it holds samples of.
-/

set_option autoImplicit false

namespace RunMetrics

namespace Store

variable {ρ σ : Type} [Roster ρ]

/-- The store registers runs itself, and knows those that it holds samples of. -/
structure Housed (store : Store ρ σ) : Prop where
  own : ∃ runs, store.registration = .own runs
  known : ∀ series, (store.slot series).history.samples ≠ [] → store.knows series.run = true

theorem empty_housed (settings : Settings) (runs : RunSet) (journal : σ) :
    (empty settings (.own runs) journal : Store ρ σ).Housed :=
  ⟨⟨runs, rfl⟩, fun _ some_held => absurd rfl some_held⟩

theorem Housed.retentive {store : Store ρ σ} (housed : store.Housed) :
    store.registration.Retentive := by
  obtain ⟨runs, own⟩ := housed.own
  exact Registration.retentive_of_isOwn (by rw [own]; rfl)

theorem Housed.advance {store next : Store ρ σ} (housed : store.Housed)
    (advance : Advance store next) : next.Housed := by
  refine ⟨?_, advance.known_of_held housed.known⟩
  obtain ⟨runs, own⟩ := housed.own
  have still := advance.isOwn
  rw [own] at still
  cases registered : next.registration with
  | own more => exact ⟨more, rfl⟩
  | shared roster =>
    rw [registered] at still
    cases still

variable [Journal σ]

/-- Whether a call replays samples, which does not write to the journal. -/
def Call.replays : Call → Bool
  | .replay _ => true
  | .replayJournal _ _ => true
  | .importSnapshot _ => true
  | _ => false

theorem Housed.moved {store : Store ρ σ} (housed : store.Housed) (roster : ρ) :
    (store.step (.moved roster)).Housed := by
  obtain ⟨runs, own⟩ := housed.own
  have known := housed.known
  cases store
  cases own
  exact ⟨⟨runs, rfl⟩, known⟩

theorem after_housed (settings : Settings) (runs : RunSet) (journal : σ) (events : List (Event ρ))
    (recorded : ∀ call, .call call ∈ events → call.replays = false) :
    ((empty settings (.own runs) journal).after events).Housed := by
  apply after_preserves Housed (fun call => call.replays = false)
  · intro store call sound _ housed
    exact housed.advance (perform_advance store sound housed.retentive call)
  · exact fun store roster housed => housed.moved roster
  · exact empty_sound settings _ journal
  · exact empty_housed settings runs journal
  · exact recorded

end Store

end RunMetrics

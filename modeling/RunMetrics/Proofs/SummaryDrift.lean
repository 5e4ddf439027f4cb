import RunMetrics.Proofs.StoreViews
import RunMetrics.Store.Call

/-!
Summaries never drift from their histories, whatever happens to a store. Each call makes its slots
grow by valid rows, so soundness of the slots is kept along every run; nothing is assumed of the
roster or of the journal.
-/

set_option autoImplicit false

namespace RunMetrics.Store

open Snapshot (Row)

variable {ρ σ : Type} [Roster ρ] [Journal σ]

/-- What one call does to the slots, whether it succeeds or fails. -/
theorem perform_extends (store : Store ρ σ) (sound : store.Sound) (call : Call) :
    ∃ rows, Extends store (store.perform call).2 rows := by
  cases call with
  | record run s => exact ⟨_, record_extends store sound run s⟩
  | recordAll run samples => exact ⟨_, recordAll_extends store sound run samples⟩
  | setParam run name text => exact ⟨_, setParam_extends store sound run name text⟩
  | setTag run name text => exact ⟨_, setTag_extends store sound run name text⟩
  | replay h => exact ⟨_, replay_extends store sound h⟩
  | replayJournal run key => exact ⟨_, replayJournal_extends store sound run key⟩
  | importSnapshot read => exact importSnapshot_extends store sound read
  | _ => exact ⟨[], sound.extends_of_slots_eq rfl rfl⟩

/-- What every permitted call on a sound store and every change of the roster preserve, a run
preserves. -/
theorem after_preserves (kept : Store ρ σ → Prop) (permitted : Call → Prop)
    (calls : ∀ store call, store.Sound → permitted call → kept store →
      kept (store.perform call).2)
    (moves : ∀ store roster, kept store → kept (store.step (.moved roster)))
    (store : Store ρ σ) (sound : store.Sound) (start : kept store) (events : List (Event ρ))
    (allowed : ∀ call, .call call ∈ events → permitted call) : kept (store.after events) := by
  induction events generalizing store with
  | nil => exact start
  | cons event rest ih =>
    have later : ∀ call, .call call ∈ rest → permitted call :=
      fun call member => allowed call (List.mem_cons_of_mem _ member)
    cases event with
    | call call =>
      obtain ⟨rows, extended⟩ := perform_extends store sound call
      have next := calls store call sound (allowed call List.mem_cons_self) start
      exact ih _ extended.sound next later
    | moved roster => exact ih (store.step (.moved roster)) sound (moves store roster start) later

theorem after_extends (store : Store ρ σ) (sound : store.Sound) (events : List (Event ρ)) :
    ∃ rows, Extends store (store.after events) rows := by
  apply after_preserves (fun next => ∃ rows, Extends store next rows) (fun _ => True)
  · rintro next call - - ⟨rows, first⟩
    obtain ⟨more, others⟩ := perform_extends next first.sound call
    exact ⟨rows ++ more, first.trans others⟩
  · rintro next roster ⟨rows, first⟩
    exact ⟨rows ++ [], first.trans (first.sound.extends_of_slots_eq rfl rfl)⟩
  · exact sound
  · exact ⟨[], sound.extends_of_slots_eq rfl rfl⟩
  · exact fun _ _ => trivial

theorem after_sound (settings : Settings) (registration : Registration ρ) (journal : σ)
    (events : List (Event ρ)) : ((empty settings registration journal).after events).Sound := by
  obtain ⟨rows, extended⟩ :=
    after_extends _ (empty_sound settings registration journal) events
  exact extended.sound

theorem settings_after (settings : Settings) (registration : Registration ρ) (journal : σ)
    (events : List (Event ρ)) :
    ((empty settings registration journal).after events).settings = settings := by
  obtain ⟨rows, extended⟩ :=
    after_extends _ (empty_sound settings registration journal) events
  exact extended.settings

/-- The samples in the slots of a store are valid. -/
theorem valid_of_slot (settings : Settings) (registration : Registration ρ) (journal : σ)
    (events : List (Event ρ)) (series : Series) (s : Sample)
    (held : s ∈ (((empty settings registration journal).after events).slot series).history.samples) :
    s.check settings.allowNegative = .ok () := by
  obtain ⟨rows, extended⟩ :=
    after_extends _ (empty_sound settings registration journal) events
  have samples := extended.slots.samples series
  change (((empty settings registration journal).after events).slot series).history.samples =
    [] ++ Snapshot.samplesOf series rows at samples
  rw [samples, List.nil_append] at held
  obtain ⟨row, there, rfl⟩ := Snapshot.mem_of_mem_samplesOf held
  exact extended.valid row there

/-- After any calls, failed ones among them, every slot holds samples of its own metric only and the
summary that recomputing them gives; nothing has drifted. A sample that the journal has taken and a
history that passed its check are therefore never refused by their slot. -/
theorem summaries_never_drift (settings : Settings) (registration : Registration ρ) (journal : σ)
    (events : List (Event ρ)) :
    let store := (empty settings registration journal).after events
    (∀ series slot, store.slots.get? series = some slot →
      slot.history.run = series.run ∧ slot.history.key = series.key ∧
        (∀ s ∈ slot.history.samples, s.key = series.key) ∧
        slot.summary = slot.history.summary? ∧
        (slot.summary = none ↔ slot.history.samples = [])) ∧
      store.drifted = [] ∧
      (∀ run s, s.check store.settings.allowNegative = .ok () → store.knows run = true →
        (Journal.append store.journal run s).1 = .ok () → (store.record run s).1 = .ok ()) ∧
      (∀ h, (store.checkReplay h).1 = .ok () → (store.replay h).1 = .ok h.size) := by
  intro store
  have sound : store.Sound := after_sound settings registration journal events
  refine ⟨?_, sound.drifted_eq_nil, ?_, ?_⟩
  · intro series slot present
    have here := sound series slot present
    refine ⟨here.run, here.key, ?_, here.summary, ?_⟩
    · intro s member
      exact (slot.history.keyed s member).trans here.key
    · rw [here.summary, History.summary?, Summary.ofSamples?_eq_none_iff]
  · intro run s valid known taken
    exact sound.record_of_taken_eq_ok valid known taken
  · intro h passed
    exact sound.replay_of_passed_eq_ok passed

end RunMetrics.Store

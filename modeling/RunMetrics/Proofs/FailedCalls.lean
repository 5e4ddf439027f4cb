import RunMetrics.Proofs.AlikeStores
import RunMetrics.Proofs.JournalStates
import RunMetrics.Proofs.SnapshotImport
import RunMetrics.Proofs.SummaryDrift

/-!
Failed calls leave no trace. A call that fails may have asked the roster, opened a slot and dropped it
again, and changed the journal; the store that it leaves shows the same as before, and is alike to the
one in which nothing but the journal has changed.
-/

set_option autoImplicit false

namespace RunMetrics

/-- Questions leave no trace in a roster. -/
def Roster.Traceless (ρ : Type) [Roster ρ] : Prop := ∀ (r : ρ) (run : String), Alike r (asked r run)

namespace Registration

variable {ρ : Type} [Roster ρ]

theorem alike_asked (traceless : Roster.Traceless ρ) (r : Registration ρ) (run : String) :
    Alike r (r.asked run) := by
  cases r with
  | own runs => exact .own runs
  | shared roster => exact .shared (traceless roster run)

theorem alike_foldl_asked (traceless : Roster.Traceless ρ) (r : Registration ρ) (runs : List String) :
    Alike r (runs.foldl asked r) := by
  induction runs generalizing r with
  | nil => exact .refl r
  | cons run rest ih => exact (alike_asked traceless r run).trans (ih (r.asked run))

end Registration

namespace Store

open Snapshot (Batch)

variable {ρ σ : Type} [Roster ρ]

theorem replay_eq_error (store : Store ρ σ) (sound : store.Sound) (h : History) {f : Failure}
    (failed : (store.replay h).1 = .error f) : ∃ runs, (store.replay h).2 = store.askedAll runs := by
  cases passed : (store.checkReplay h).1 with
  | error g =>
    rw [replay_of_refused store h passed]
    exact checkReplay_snd store h
  | ok =>
    rw [sound.replay_of_passed_eq_ok passed] at failed
    cases failed

variable [Journal σ]

/-- What a failed call may have done: asked the roster, changed the journal, and moved empty slots. -/
structure Idle (before after : Store ρ σ) : Prop where
  parts : ∃ runs slots journal, after = { before.askedAll runs with slots, journal } ∧
    Slots.Grown before.slots slots []
  journal : Journal.Unmoved σ → after.journal = before.journal

theorem Sound.idle_askedAll {store : Store ρ σ} (sound : store.Sound) (runs : List String) :
    Idle store (store.askedAll runs) :=
  ⟨⟨runs, store.slots, store.journal, rfl, Slots.Sound.grown sound⟩, fun _ => rfl⟩

theorem Sound.idle_asked {store : Store ρ σ} (sound : store.Sound) (run : String) :
    Idle store (store.asked run) := sound.idle_askedAll [run]

theorem map_eq_error {α β : Type} {f : α → β} {outcome : Except Failure α} {failure : Failure}
    (failed : outcome.map f = .error failure) : outcome = .error failure := by
  cases outcome with
  | error other =>
    cases failed
    rfl
  | ok answer => cases failed

theorem record_idle (store : Store ρ σ) (sound : store.Sound) (run : String) (s : Sample)
    {f : Failure} (failed : (store.record run s).1 = .error f) :
    Idle store (store.record run s).2 := by
  have outcome := record_outcome store sound run s
  generalize store.record run s = result at outcome failed ⊢
  cases outcome with
  | invalid _ => exact sound.idle_askedAll []
  | unknown _ _ => exact sound.idle_asked run
  | refused _ _ refused grown =>
    exact ⟨⟨[run], _, _, rfl, grown⟩, fun unmoved => unmoved.refused _ _ run s _ refused⟩
  | taken _ _ _ _ => cases failed

theorem replayJournal_idle (store : Store ρ σ) (sound : store.Sound) (run key : String)
    {f : Failure} (failed : (store.replayJournal run key).1 = .error f) :
    Idle store (store.replayJournal run key).2 := by
  have loaded (runs : List String) :
      Idle store { store.askedAll runs with
        journal := (Journal.load store.journal run key).2 } :=
    ⟨⟨runs, store.slots, _, rfl, Slots.Sound.grown sound⟩,
      fun unmoved => unmoved.loaded store.journal run key⟩
  unfold replayJournal at failed ⊢
  rcases answer : Journal.load store.journal run key with ⟨g | samples, journal⟩
  · rw [answer] at loaded
    exact loaded []
  · rw [answer] at loaded
    simp only [answer] at failed ⊢
    cases built : History.ofSamples run key samples with
    | error g => exact loaded []
    | ok h =>
      simp only [built] at failed ⊢
      obtain ⟨runs, asked⟩ := replay_eq_error { store with journal } sound h failed
      rw [asked]
      exact loaded runs

/-- What is shown depends on what was done only through what the roster answers. -/
theorem Idle.looks_of_contains {before after : Store ρ σ} (idle : Idle before after)
    (sound : before.Sound) {registration : Registration ρ}
    (same : ∀ run, registration.contains run = after.knows run) :
    Looks { before with registration } after := by
  obtain ⟨runs, slots, journal, rfl, grown⟩ := idle.parts
  exact {
    left := sound
    right := grown.sound
    knows := same
    slot := fun series => (Slots.Sound.grown sound).slotAt_eq grown (fun _ => rfl) series
    params := rfl
    tags := rfl }

variable [Roster.Steady ρ]

theorem perform_idle (store : Store ρ σ) (sound : store.Sound) (call : Call)
    (single : ∀ run samples, call ≠ .recordAll run samples) {f : Failure}
    (failed : (store.perform call).1 = .error f) : Idle store (store.perform call).2 := by
  cases call with
  | register run => cases failed
  | record run s => exact record_idle store sound run s (map_eq_error failed)
  | recordAll run samples => exact absurd rfl (single run samples)
  | setParam run name text =>
    have refused := map_eq_error failed
    simp only [perform]
    unfold setParam at refused ⊢
    split at refused
    · exact sound.idle_asked run
    · cases refused
  | setTag run name text =>
    have refused := map_eq_error failed
    simp only [perform]
    unfold setTag at refused ⊢
    split at refused
    · exact sound.idle_asked run
    · cases refused
  | replay h =>
    obtain ⟨runs, asked⟩ := replay_eq_error store sound h (map_eq_error failed)
    simp only [perform, asked]
    exact sound.idle_askedAll runs
  | replayJournal run key => exact replayJournal_idle store sound run key (map_eq_error failed)
  | importSnapshot read =>
    have refused := map_eq_error failed
    simp only [perform]
    have outcome := importSnapshot_outcome store sound read
    generalize store.importSnapshot read = result at outcome refused ⊢
    cases outcome with
    | refused g runs => exact sound.idle_askedAll runs
    | taken extended => cases refused
  | knows run | summary run _ | history run _ | snapshot run _ | keys run | histories run
  | overview run | rows run => exact sound.idle_asked run
  | drifted => exact sound.idle_askedAll []

/-! ### What is left behind -/

theorem Idle.looks {before after : Store ρ σ} (idle : Idle before after) (sound : before.Sound) :
    Looks before after := by
  refine idle.looks_of_contains sound fun run => ?_
  obtain ⟨runs, slots, journal, rfl, -⟩ := idle.parts
  exact (knows_askedAll before runs run).symm

theorem Idle.alike {before after : Store ρ σ} (idle : Idle before after) (sound : before.Sound)
    (traceless : Roster.Traceless ρ) : Alike { before with journal := after.journal } after := by
  have looks := idle.looks sound
  obtain ⟨runs, slots, journal, rfl, grown⟩ := idle.parts
  exact {
    left := sound
    right := grown.sound
    settings := rfl
    registration := Registration.alike_foldl_asked traceless before.registration runs
    journal := rfl
    slot := looks.slot
    params := rfl
    tags := rfl }

/-- Nothing was left behind between the two, but for what a journal may keep. -/
structure NoTrace (before after : Store ρ σ) : Prop where
  reads : ∀ read : Call, read.isRead = true → (after.perform read).1 = (before.perform read).1
  knows : ∀ run, after.registration.contains run = before.registration.contains run
  own : ∀ runs, before.registration = .own runs → after.registration = .own runs
  /-- What is done later sees the journal, and nothing else that has changed. -/
  later : Roster.Traceless ρ → ∀ later, after.replies later =
    ({ before with journal := after.journal } : Store ρ σ).replies later
  /-- With a journal that refusals and loads do not move, it sees nothing at all. -/
  unmoved : Roster.Traceless ρ → Journal.Unmoved σ → ∀ later, after.replies later = before.replies later

theorem Idle.noTrace {before after : Store ρ σ} (idle : Idle before after) (sound : before.Sound) :
    NoTrace before after := by
  have looks := idle.looks sound
  refine ⟨fun read reads => (looks.read reads).symm, fun run => (looks.knows run).symm, ?_, ?_, ?_⟩
  · intro runs own
    obtain ⟨asked, slots, journal, same, -⟩ := idle.parts
    rw [same]
    simp only [askedAll, own, Registration.foldl_asked_own]
  · intro traceless later
    exact ((idle.alike sound traceless).replies_eq later).symm
  · intro traceless unmoved later
    have alike := idle.alike sound traceless
    rw [idle.journal unmoved] at alike
    exact (alike.replies_eq later).symm

/-- A failed call other than a batch, which keeps the samples before the refused one, changes no view
of any run, and no run is known that was not known before. If questions leave no trace in the roster,
nothing that is done later tells the store from the one whose journal alone has changed; with a journal
that keeps no trace of refused appends and loads, such as the silent one and the logbook, nothing tells
it from the store before the call. -/
theorem failed_calls_leave_no_trace (settings : Settings) (registration : Registration ρ)
    (journal : σ) (events : List (Event ρ)) (call : Call) (f : Failure)
    (single : ∀ run samples, call ≠ .recordAll run samples)
    (failed : (((empty settings registration journal).after events).perform call).1 = .error f) :
    let before := (empty settings registration journal).after events
    NoTrace before (before.perform call).2 ∧ Journal.Unmoved Silent ∧ Journal.Unmoved Logbook := by
  intro before
  have sound : before.Sound := after_sound settings registration journal events
  have idle : Idle before (before.perform call).2 := perform_idle before sound call single failed
  exact ⟨idle.noTrace sound, Silent.unmoved, Logbook.unmoved⟩

/-- A full logbook refuses the first sample of a metric, for which a slot was opened. -/
theorem refused_record_leaves_no_trace :
    let before : Store RunSet Logbook :=
      (empty {} (.shared RunSet.empty) (Logbook.empty (some 1))).after
        [.call (.register "run"), .call (.record "run" ⟨"loss", ⟨0⟩, 0, 1⟩)]
    let outcome := before.perform (.record "run" ⟨"accuracy", ⟨0⟩, 0, 1⟩)
    (∃ f, outcome.1 = .error f) ∧ ∀ later, outcome.2.replies later = before.replies later := by
  intro before outcome
  have failed : outcome.1 = .error (.journal
      "sink full (1 samples), cannot append 'accuracy' for run run") := by
    decide
  obtain ⟨noTrace, -, unmoved⟩ :=
    failed_calls_leave_no_trace {} (.shared RunSet.empty) (Logbook.empty (some 1))
      [.call (.register "run"), .call (.record "run" ⟨"loss", ⟨0⟩, 0, 1⟩)]
      (.record "run" ⟨"accuracy", ⟨0⟩, 0, 1⟩) _ (fun _ _ => nofun) failed
  exact ⟨⟨_, failed⟩, noTrace.unmoved (fun _ _ _ => rfl) unmoved⟩

end Store

end RunMetrics

import RunMetrics.Proofs.JournalStates
import RunMetrics.Proofs.OwnRuns
import RunMetrics.Proofs.SummaryDrift

/-!
A logbook beside the histories of its store. While samples come in through recording alone, the
logbook holds what the histories hold: a sample that it takes goes into both, and one that is refused
goes into neither. Replaying would not write to the logbook.
-/

set_option autoImplicit false

namespace RunMetrics

namespace Logbook

/-- The logbook holds the samples of the slots. -/
structure Mirrors (l : Logbook) (slots : Slots) : Prop where
  log : ∀ series, l.log series = (slots.slotAt series).history.samples
  tight : l.Tight

theorem Mirrors.keep {l : Logbook} {slots more : Slots} (mirrors : l.Mirrors slots)
    (grown : Slots.Grown slots more []) : l.Mirrors more := by
  refine ⟨fun series => ?_, mirrors.tight⟩
  rw [grown.samples, Snapshot.samplesOf_nil, List.append_nil, mirrors.log]

theorem Mirrors.take {l next : Logbook} {slots more : Slots} (mirrors : l.Mirrors slots)
    {run : String} {s : Sample} (taken : l.append run s = (.ok (), next))
    (grown : Slots.Grown slots more [⟨run, s⟩]) : next.Mirrors more := by
  refine ⟨fun series => ?_, mirrors.tight.of_taken taken⟩
  rw [grown.samples, log_of_taken taken, mirrors.log]

end Logbook

namespace Store

variable {ρ : Type}

/-- The logbook of the store holds what its histories hold. -/
def Mirrored (store : Store ρ Logbook) : Prop := store.journal.Mirrors store.slots

theorem empty_mirrored (settings : Settings) (registration : Registration ρ)
    (capacity : Option UInt64) :
    (empty settings registration (Logbook.empty capacity)).Mirrored :=
  ⟨fun _ => rfl, Logbook.empty_tight capacity⟩

variable [Roster ρ]

theorem record_mirrored (store : Store ρ Logbook) (sound : store.Sound) (mirrored : store.Mirrored)
    (run : String) (s : Sample) : (store.record run s).2.Mirrored := by
  have outcome := record_outcome store sound run s
  generalize store.record run s = result at outcome ⊢
  cases outcome with
  | invalid _ => exact mirrored
  | unknown _ _ => exact mirrored
  | refused _ _ refused grown =>
    have same := Logbook.append_refused refused
    subst same
    exact Logbook.Mirrors.keep mirrored grown
  | taken _ _ taken grown => exact Logbook.Mirrors.take mirrored taken grown

theorem recordAll_mirrored (store : Store ρ Logbook) (sound : store.Sound)
    (mirrored : store.Mirrored) (run : String) (samples : List Sample) :
    (store.recordAll run samples).2.Mirrored := by
  apply recordAll_preserves Mirrored run
  · intro store s sound mirrored
    exact record_mirrored store sound mirrored run s
  · exact sound
  · exact mirrored

theorem perform_mirrored (store : Store ρ Logbook) (sound : store.Sound) (mirrored : store.Mirrored)
    (call : Call) (recorded : call.replays = false) : (store.perform call).2.Mirrored := by
  cases call with
  | record run s => exact record_mirrored store sound mirrored run s
  | recordAll run samples => exact recordAll_mirrored store sound mirrored run samples
  | setParam run name text =>
    simp only [perform]
    unfold setParam
    split <;> exact mirrored
  | setTag run name text =>
    simp only [perform]
    unfold setTag
    split <;> exact mirrored
  | replay h => cases recorded
  | replayJournal run key => cases recorded
  | importSnapshot read => cases recorded
  | _ => exact mirrored

/-- Samples that came in through recording are all in the logbook. -/
theorem after_mirrored (settings : Settings) (registration : Registration ρ)
    (capacity : Option UInt64) (events : List (Event ρ))
    (recorded : ∀ call, .call call ∈ events → call.replays = false) :
    ((empty settings registration (Logbook.empty capacity)).after events).Mirrored := by
  apply after_preserves Mirrored (fun call => call.replays = false)
  · intro store call sound permitted mirrored
    exact perform_mirrored store sound mirrored call permitted
  · exact fun store roster mirrored => mirrored
  · exact empty_sound settings registration _
  · exact empty_mirrored settings registration capacity
  · exact recorded

end Store

end RunMetrics

import RunMetrics.Proofs.AppendLog
import RunMetrics.Proofs.SummaryDrift

/-!
Slots that hold samples. A slot is opened before the journal is asked for its first sample, and dropped
again if the journal refuses it. Unless an empty history is replayed, no slot is ever left without samples,
so the slots of a run are those of the metrics of which a sample was accepted. A slot that holds samples
stays where it is, whatever is called.
-/

set_option autoImplicit false

namespace RunMetrics

namespace Slots

/-- Every slot that is there holds samples. -/
def Held (slots : Slots) : Prop :=
  ∀ series slot, slots.get? series = some slot → slot.history.samples ≠ []

variable {slots : Slots}

theorem empty_held : Held Table.empty := by
  intro series slot found
  cases found

theorem Held.insert (held : Held slots) (series : Series) {slot : Slot}
    (filled : slot.history.samples ≠ []) : Held (Table.insert slots series slot) := by
  intro other found present
  by_cases same : other = series
  · subst same
    rw [Table.get?_insert_self] at present
    cases present
    exact filled
  · rw [Table.get?_insert_of_ne slots slot same] at present
    exact held other found present

/-- A metric that has samples has a slot for them. -/
theorem get?_eq_some_of_filled {series : Series} (filled : (slots.slotAt series).history.samples ≠ []) :
    slots.get? series = some (slots.slotAt series) := by
  cases found : slots.get? series with
  | none =>
    rw [slotAt_of_get?_eq_none found] at filled
    exact absurd rfl filled
  | some slot => rw [slotAt_of_get?_eq_some found]

theorem Held.contains_iff (held : Held slots) (series : Series) :
    slots.contains series = true ↔ (slots.slotAt series).history.samples ≠ [] := by
  rw [Table.contains, Option.isSome_iff_exists]
  constructor
  · rintro ⟨slot, found⟩
    rw [slotAt_of_get?_eq_some found]
    exact held series slot found
  · exact fun filled => ⟨_, get?_eq_some_of_filled filled⟩

/-- Where every slot holds samples there is none to drop. -/
theorem Held.discarded_eq (held : Held slots) (series : Series) : discarded slots series = slots := by
  unfold discarded
  split
  · rename_i nothing
    apply Table.erase_of_get?_eq_none
    cases found : slots.get? series with
    | none => rfl
    | some slot =>
      rw [slotAt_of_get?_eq_some found, History.isEmpty, List.isEmpty_iff] at nothing
      exact absurd nothing (held series slot found)
  · rfl

/-- A slot that holds samples is still there when the slots have grown: the same slot, with samples added
to it. -/
theorem Grown.get?_eq_some {before after : Slots} {rows : List Snapshot.Row}
    (grown : Grown before after rows) (sound : Sound before) {series : Series} {slot : Slot}
    (found : before.get? series = some slot) (filled : slot.history.samples ≠ []) :
    ∃ added next, slot.addAll added = (.ok (), next) ∧ after.get? series = some next := by
  have samples := grown.samples series
  rw [slotAt_of_get?_eq_some found] at samples
  have there := grown.sound.slotAt series
  have own : ∀ s ∈ Snapshot.samplesOf series rows, s.key = series.key := by
    intro s member
    rw [← there.key]
    exact (after.slotAt series).history.keyed s (samples ▸ List.mem_append_right _ member)
  obtain ⟨next, added, nextSound, nextSamples⟩ := (sound series slot found).addAll own
  have same : after.slotAt series = next := there.eq_of_samples_eq nextSound (samples.trans nextSamples.symm)
  have stays : (after.slotAt series).history.samples ≠ [] := by
    rw [samples]
    exact List.append_ne_nil_of_left_ne_nil filled _
  exact ⟨_, next, added, same ▸ get?_eq_some_of_filled stays⟩

end Slots

namespace Store

variable {ρ σ : Type} [Roster ρ] {store : Store ρ σ}

theorem replay_held (sound : store.Sound) (held : Slots.Held store.slots) (h : History)
    (filled : h.samples ≠ []) : Slots.Held (store.replay h).2.slots := by
  cases passed : (store.checkReplay h).1 with
  | error f =>
    obtain ⟨runs, asked⟩ := checkReplay_snd store h
    rw [replay_of_refused store h passed, asked]
    exact held
  | ok =>
    obtain ⟨slot, replayed, -, samples⟩ := replay_eq_of_admitted store sound h passed
    rw [replayed]
    apply held.insert h.series
    rw [samples]
    exact List.append_ne_nil_of_right_ne_nil _ filled

variable [Journal σ]

/-- What recording does to the slots: one that holds the sample takes its place, or an empty one is dropped,
or nothing. -/
theorem record_slots (sound : store.Sound) (run : String) (s : Sample) :
    (∃ slot, (store.record run s).1 = .ok () ∧
        (store.record run s).2.slots = store.slots.insert ⟨run, s.key⟩ slot ∧
        slot.history.samples = (store.slot ⟨run, s.key⟩).history.samples ++ [s]) ∨
      ∃ f, (store.record run s).1 = .error f ∧
        ((store.record run s).2.slots = store.slots ∨
          (store.record run s).2.slots = Slots.discarded store.slots ⟨run, s.key⟩) := by
  cases valid : s.check store.settings.allowNegative with
  | error f =>
    rw [record_of_invalid store run s valid]
    exact Or.inr ⟨f, rfl, Or.inl rfl⟩
  | ok =>
    cases known : store.knows run with
    | false =>
      rw [record_of_unknown store run s valid known]
      exact Or.inr ⟨_, rfl, Or.inl rfl⟩
    | true =>
      rcases answer : Journal.append store.journal run s with ⟨f | _, journal⟩
      · rw [record_eq_of_refused store run s valid known answer]
        exact Or.inr ⟨f, rfl, Or.inr rfl⟩
      · obtain ⟨slot, recorded, -, samples⟩ := record_eq_of_taken store sound run s valid known answer
        rw [recorded]
        exact Or.inl ⟨slot, rfl, rfl, samples⟩

/-- A refused sample leaves the slots as they were. -/
theorem record_slots_of_error (sound : store.Sound) (held : Slots.Held store.slots) {run : String}
    {s : Sample} {f : Failure} (refused : (store.record run s).1 = .error f) :
    (store.record run s).2.slots = store.slots := by
  rcases record_slots sound run s with ⟨slot, success, -⟩ | ⟨g, -, kept | dropped⟩
  · rw [success] at refused
    cases refused
  · exact kept
  · rw [dropped, held.discarded_eq]

theorem record_held (sound : store.Sound) (held : Slots.Held store.slots) (run : String) (s : Sample) :
    Slots.Held (store.record run s).2.slots := by
  rcases record_slots sound run s with ⟨slot, -, inserted, samples⟩ | ⟨f, refused, -⟩
  · rw [inserted]
    apply held.insert
    rw [samples]
    exact List.append_ne_nil_of_right_ne_nil _ (List.cons_ne_nil s [])
  · rw [record_slots_of_error sound held refused]
    exact held

/-- The call replays nothing, or a history that has samples. -/
def Call.ReplaysSamples : Call → Prop
  | .replay h => h.samples ≠ []
  | .replayJournal _ _ => False
  | .importSnapshot _ => False
  | _ => True

theorem perform_held (sound : store.Sound) (held : Slots.Held store.slots) {call : Call}
    (permitted : call.ReplaysSamples) : Slots.Held (store.perform call).2.slots := by
  cases call with
  | record run s => exact record_held sound held run s
  | recordAll run samples =>
    exact recordAll_preserves (fun next => Slots.Held next.slots) run
      (fun next s nextSound nextHeld => record_held nextSound nextHeld run s) store sound held samples
  | replay h => exact replay_held sound held h permitted
  | setParam run name text =>
    simp only [perform, setParam]
    split <;> exact held
  | setTag run name text =>
    simp only [perform, setTag]
    split <;> exact held
  | replayJournal run key => cases permitted
  | importSnapshot read => cases permitted
  | _ => exact held

theorem after_held (sound : store.Sound) (held : Slots.Held store.slots) {events : List (Event ρ)}
    (permitted : ∀ call, .call call ∈ events → call.ReplaysSamples) :
    Slots.Held (store.after events).slots :=
  after_preserves (fun next => Slots.Held next.slots) Call.ReplaysSamples
    (fun _ _ nextSound allowed nextHeld => perform_held nextSound nextHeld allowed)
    (fun _ _ nextHeld => nextHeld) store sound held events permitted

/-- After calls that replay no empty history, refused samples among them, every slot holds samples; a metric
has a slot just if one of its samples was accepted, and a sample that is refused leaves the slots exactly
as they were. After any calls at all, a slot that holds samples stays through all later ones: it only gets
more samples. -/
theorem slots_hold_accepted_samples (settings : Settings) (registration : Registration ρ) (journal : σ) :
    let start := empty settings registration journal
    (∀ events, (∀ call, .call call ∈ events → call.ReplaysSamples) →
      let store := start.after events
      (∀ series slot, store.slots.get? series = some slot → slot.history.samples ≠ []) ∧
        (∀ series, store.slots.contains series = true ↔
          ∃ row ∈ start.acceptedDuring events, row.series = series) ∧
        ∀ run s f, (store.record run s).1 = .error f → (store.record run s).2.slots = store.slots) ∧
      ∀ events later series slot, (start.after events).slots.get? series = some slot →
        slot.history.samples ≠ [] →
        ∃ added next, slot.addAll added = (.ok (), next) ∧
          ((start.after events).after later).slots.get? series = some next := by
  intro start
  have startSound : start.Sound := empty_sound settings registration journal
  refine ⟨fun events permitted => ?_, fun events later series slot found filled => ?_⟩
  · intro store
    have extended : Extends start store (start.acceptedDuring events) :=
      after_extends_of_calls events (fun next call nextSound member =>
        perform_extends_recorded next nextSound call fun read same => by
          have allowed := permitted call member
          rw [same] at allowed
          exact allowed) start startSound
    have held : Slots.Held store.slots := after_held startSound Slots.empty_held permitted
    refine ⟨held, fun series => ?_, fun run s f refused => ?_⟩
    · have samples : (Slots.slotAt store.slots series).history.samples =
          Snapshot.samplesOf series (start.acceptedDuring events) := extended.slots.samples series
      rw [held.contains_iff, samples, Snapshot.samplesOf_ne_nil_iff]
    · exact record_slots_of_error extended.sound held refused
  · have sound : (start.after events).Sound := after_sound settings registration journal events
    obtain ⟨rows, extended⟩ := after_extends (start.after events) sound later
    exact extended.slots.get?_eq_some sound found filled

/-- A journal that refuses the first sample of each of two metrics and a later one of the first of them. -/
theorem slots_after_refused_first_samples :
    let start : Store RunSet Scripted :=
      empty {} (.own RunSet.empty) { refused := [0, 2, 3], stock := [], loadFailure := none }
    let sample (key : String) (step : Int64) : Sample := ⟨key, ⟨0⟩, 0, step⟩
    let events : List (Event RunSet) := [.call (.register "run"),
      .call (.record "run" (sample "loss" 0)), .call (.record "run" (sample "loss" 1)),
      .call (.recordAll "run" [sample "accuracy" 0, sample "accuracy" 1])]
    let store := start.after events
    (∀ call, .call call ∈ events → call.ReplaysSamples) ∧
      store.slots.contains ⟨"run", "loss"⟩ = true ∧
      store.slots.contains ⟨"run", "accuracy"⟩ = false ∧
      (store.record "run" (sample "loss" 2)).1 = .error (.journal "scripted failure of append 3") ∧
      (store.record "run" (sample "loss" 2)).2.slots = store.slots ∧
      ∃ added slot next, store.slots.get? ⟨"run", "loss"⟩ = some slot ∧ slot.history.samples ≠ [] ∧
        slot.addAll added = (.ok (), next) ∧
        (store.after [.call (.record "run" (sample "loss" 2)),
          .call (.record "run" (sample "loss" 3))]).slots.get? ⟨"run", "loss"⟩ = some next := by
  intro start sample events store
  have permitted : ∀ call, .call call ∈ events → call.ReplaysSamples := by
    intro call member
    simp only [events, List.mem_cons, Event.call.injEq, List.not_mem_nil, or_false] at member
    rcases member with rfl | rfl | rfl | rfl <;> trivial
  obtain ⟨law, stays⟩ :=
    slots_hold_accepted_samples (ρ := RunSet) {} (.own RunSet.empty) (Scripted.mk [0, 2, 3] [] none 0)
  obtain ⟨filled, present, unchanged⟩ := law events permitted
  have refused : (store.record "run" (sample "loss" 2)).1 =
      .error (.journal "scripted failure of append 3") := by
    decide
  have kept : store.slots.contains ⟨"run", "loss"⟩ = true :=
    (present ⟨"run", "loss"⟩).2 ⟨⟨"run", sample "loss" 1⟩, by decide, rfl⟩
  have absent : store.slots.contains ⟨"run", "accuracy"⟩ = false :=
    Bool.eq_false_iff.2 fun there => absurd ((present ⟨"run", "accuracy"⟩).1 there) (by decide)
  obtain ⟨slot, found⟩ := Option.isSome_iff_exists.1 kept
  have holds := filled _ slot found
  obtain ⟨added, next, extended, still⟩ := stays events [.call (.record "run" (sample "loss" 2)),
    .call (.record "run" (sample "loss" 3))] _ slot found holds
  exact ⟨permitted, kept, absent, refused, unchanged _ _ _ refused, added, slot, next, found, holds,
    extended, still⟩

end Store

end RunMetrics

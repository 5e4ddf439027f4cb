import RunMetrics.Proofs.Enrolment
import RunMetrics.Proofs.Resubmission
import RunMetrics.Proofs.SequentialReplay

/-!
Replaying and recording. The two ways in which samples enter a store are written apart: one tests every
sample as it comes and asks the journal for it, the other tests all of them first and leaves the journal
alone. Where both succeed they leave stores that answer alike, whatever the metric held before.
-/

set_option autoImplicit false

namespace RunMetrics

open Snapshot (rowsOf samplesOf)

/-- Histories of one metric make one history of that metric. -/
theorem History.exists_joined {h g : History} (metric : h.series = g.series) :
    ∃ all, ofSamples h.run h.key (h.samples ++ g.samples) = .ok all ∧ all.run = h.run ∧
      all.samples = h.samples ++ g.samples := by
  have keyed : ∀ s ∈ h.samples ++ g.samples, s.key = h.key := by
    intro s member
    rcases List.mem_append.1 member with mine | others
    · exact h.keyed s mine
    · exact (g.keyed s others).trans (congrArg Series.key metric).symm
  obtain ⟨all, joined⟩ := ofSamples_of_keyed h.run h.key _ keyed
  obtain ⟨run, -, samples⟩ := ofSamples_eq_ok joined
  exact ⟨all, joined, run, samples⟩

namespace Store

variable {ρ σ τ : Type} [Roster ρ]

/-! ### Stores that answer alike -/

/-- The store with its roster in another state. -/
def consulting (store : Store ρ σ) (registration : Registration ρ) : Store ρ σ :=
  { store with registration }

section Reads

variable [Journal σ] [Journal τ]

/-- The stores answer every question alike, over whatever journals. -/
def SameReads (a : Store ρ σ) (b : Store ρ τ) : Prop :=
  ∀ read : Call, read.isRead = true → (a.perform read).1 = (b.perform read).1

/-- No question is put to the journal. -/
theorem read_withJournal (store : Store ρ τ) (journal : σ) {read : Call} (reads : read.isRead = true) :
    ((store.withJournal journal).perform read).1 = (store.perform read).1 := by
  cases read with
  | knows | summary | history | snapshot | keys | histories | overview | rows | drifted => rfl
  | _ => cases reads

theorem Looks.sameReads {a b : Store ρ σ} (looks : Looks a b) : SameReads a b :=
  fun _ reads => looks.read reads

theorem Looks.sameReads_of_withJournal {a : Store ρ σ} {b : Store ρ τ}
    (looks : Looks a (b.withJournal a.journal)) : SameReads a b :=
  fun _ reads => (looks.read reads).trans (read_withJournal b a.journal reads)

end Reads

/-- A history is refused for its first sample that is not valid, and nothing of it goes in. -/
theorem replay_of_invalid (store : Store ρ σ) {h : History} {before after : List Sample} {s : Sample}
    {f : Failure} (split : h.samples = before ++ s :: after)
    (valid : ∀ t ∈ before, t.check store.settings.allowNegative = .ok ())
    (invalid : s.check store.settings.allowNegative = .error f) :
    store.replay h = (.error f, store) := by
  have passed : before.findSome? (fun t => Failure.of? (t.check store.settings.allowNegative)) =
      none := by
    rw [List.findSome?_eq_none_iff]
    intro t member
    rw [valid t member, Failure.of?]
  have tested : h.samples.forM (fun t => t.check store.settings.allowNegative) = .error f := by
    rw [forM_eq, split, List.findSome?_append, passed, Option.none_or, List.findSome?_cons, invalid,
      Failure.of?]
  have refused : store.checkReplay h = (.error f, store) := by simp only [checkReplay, tested]
  rw [replay, refused]

/-! ### A store that registers runs itself -/

section Own

variable {store : Store ρ σ} {runs : RunSet} {h g : History}

/-- Two histories whose samples are valid go in one behind the other. -/
theorem replay_two_of_own (sound : store.Sound) (own : store.registration = .own runs)
    (first : ∀ s ∈ h.samples, s.check store.settings.allowNegative = .ok ())
    (second : ∀ s ∈ g.samples, s.check store.settings.allowNegative = .ok ()) :
    ∃ middle last, store.replay h = (.ok h.size, middle) ∧ middle.replay g = (.ok g.size, last) ∧
      Replayed store last [h, g] := by
  obtain ⟨middle, one, replayed, registered⟩ := replay_of_own sound own first
  rw [← replayed.settings] at second
  obtain ⟨last, other, both, -⟩ := replay_of_own replayed.sound registered second
  exact ⟨middle, last, one, other, replayed.trans both⟩

/-- Histories of one metric go in like the one that holds the samples of both. -/
theorem Replayed.looks_of_joined {first second : Store ρ σ} {all : History}
    (left : Replayed store first [h, g]) (right : Replayed store second [all]) (same : g.run = h.run)
    (run : all.run = h.run) (samples : all.samples = h.samples ++ g.samples) : Looks first second := by
  have rows : rowsOf [h, g] = rowsOf [all] := by
    rw [Snapshot.rowsOf_cons, Snapshot.rowsOf_singleton, Snapshot.rowsOf_singleton,
      Snapshot.rowsOf_singleton, run, samples, List.map_append, same]
  apply left.looks right
  · intro series
    rw [rows]
  · intro other
    simp [run, same]

/-- Histories of two metrics go in in either order. -/
theorem Replayed.looks_of_swapped {first second : Store ρ σ} (left : Replayed store first [h, g])
    (right : Replayed store second [g, h]) (apart : h.series ≠ g.series) : Looks first second := by
  apply left.looks right
  · intro series
    rw [Snapshot.rowsOf_cons h [g], Snapshot.rowsOf_cons g [h], Snapshot.samplesOf_append,
      Snapshot.samplesOf_append]
    -- The metric is not that of both, so one of them has no samples of it.
    by_cases mine : series = h.series
    · have absent : series ∉ [g].map History.series := by simpa [mine] using apart
      rw [Snapshot.samplesOf_rowsOf_of_notMem absent, List.append_nil, List.nil_append]
    · have absent : series ∉ [h].map History.series := by simpa using mine
      rw [Snapshot.samplesOf_rowsOf_of_notMem absent, List.append_nil, List.nil_append]
  · intro run
    simp [or_comm]

/-- Registering the run and recording the samples leaves what replaying the history leaves. -/
theorem recordAll_looks [Journal τ] (sound : store.Sound) (own : store.registration = .own runs)
    (valid : ∀ s ∈ h.samples, s.check store.settings.allowNegative = .ok ()) {other : τ}
    (takes : Journal.Takes other h.run h.samples) {replayed : Store ρ σ}
    (taken : Replayed store replayed [h])
    (registered : replayed.registration = .own (runs.register h.run).2) :
    ∃ recorded, ((store.register h.run).2.withJournal other).recordAll h.run h.samples =
        (.ok h.size, recorded) ∧ Looks replayed (recorded.withJournal replayed.journal) := by
  have start : ((store.register h.run).2.withJournal other).Sound := sound
  have enrolled : ((store.register h.run).2.withJournal other).registration =
      .own (runs.register h.run).2 := congrArg (fun r => (r.register h.run).2) own
  have vouches : ((store.register h.run).2.withJournal other).registration.Vouches h.run := by
    rw [enrolled, Registration.vouches_own_iff, RunSet.contains_register]
    exact Or.inl rfl
  obtain ⟨recorded, success⟩ := recordAll_of_takes start vouches valid takes
  obtain ⟨-, extended⟩ := start.extends_of_recordAll success
  obtain ⟨asked, journal, slots, rest⟩ :=
    recordAll_rest ((store.register h.run).2.withJournal other) h.run h.samples
  rw [askedAll_of_own enrolled, success] at rest
  simp only at rest
  subst rest
  refine ⟨_, success, taken.sound, extended.sound, fun run => ?_, fun series => ?_, ?_, ?_⟩
  · rw [knows, registered, knows]
    exact congrArg (fun r => r.contains run) enrolled.symm
  · apply (taken.sound.slotAt series).eq_of_samples_eq (extended.sound.slotAt series)
    rw [taken.slots.samples, extended.slots.samples, Snapshot.rowsOf_singleton]
    rfl
  · obtain ⟨registration, slots, rfl⟩ := taken.rest
    rfl
  · obtain ⟨registration, slots, rfl⟩ := taken.rest
    rfl

end Own

variable [Journal σ] [Journal τ]

/-- Where the store registers runs itself, a history whose samples are valid goes in as if its run were
registered and its samples recorded, over a journal that takes them; the journal of the store is not
written to. Histories of one metric go in like the one that holds the samples of both, and those of two
metrics in either order. A history with samples that are not valid is refused for the first of them,
and the store stays as it is. -/
theorem replaying_agrees_with_recording (settings : Settings) (runs : RunSet) (journal : σ)
    (events : List (Event ρ)) :
    let store := (empty settings (.own runs) journal).after events
    let Valid (h : History) := ∀ s ∈ h.samples, s.check settings.allowNegative = .ok ()
    (∀ h, (store.replay h).2.journal = store.journal) ∧
      (∀ h, Valid h → (store.replay h).1 = .ok h.size ∧
        ∀ other : τ, Journal.Takes other h.run h.samples →
          let recorded := ((store.register h.run).2.withJournal other).recordAll h.run h.samples
          recorded.1 = .ok h.size ∧ SameReads (store.replay h).2 recorded.2) ∧
      (∀ h g, Valid h → Valid g → h.series = g.series →
        ((store.replay h).2.replay g).1 = .ok g.size ∧
          ∃ all, History.ofSamples h.run h.key (h.samples ++ g.samples) = .ok all ∧
            (store.replay all).1 = .ok (h.size + g.size) ∧
            SameReads ((store.replay h).2.replay g).2 (store.replay all).2) ∧
      (∀ h g, Valid h → Valid g → h.series ≠ g.series →
        ((store.replay h).2.replay g).1 = .ok g.size ∧ ((store.replay g).2.replay h).1 = .ok h.size ∧
          SameReads ((store.replay h).2.replay g).2 ((store.replay g).2.replay h).2) ∧
      ∀ h before s after f, h.samples = before ++ s :: after →
        (∀ t ∈ before, t.check settings.allowNegative = .ok ()) →
        s.check settings.allowNegative = .error f → store.replay h = (.error f, store) := by
  intro store Valid
  have sound : store.Sound := after_sound settings (.own runs) journal events
  have same : store.settings = settings := settings_after settings (.own runs) journal events
  obtain ⟨kept, own, -⟩ := after_own (empty_sound settings (.own runs) journal) rfl events
  have checked (h : History) (valid : Valid h) :
      ∀ s ∈ h.samples, s.check store.settings.allowNegative = .ok () := by
    rw [same]
    exact valid
  refine ⟨fun h => ?_, fun h valid => ?_, fun h g first second metric => ?_,
    fun h g first second apart => ?_, fun h before s after f split valid invalid => ?_⟩
  · obtain ⟨registration, slots, rest⟩ := replay_rest store h
    rw [rest]
  · obtain ⟨next, replayed, taken, registered⟩ := replay_of_own sound own (checked h valid)
    rw [replayed]
    refine ⟨rfl, ?_⟩
    intro other takes recorded
    obtain ⟨last, success, looks⟩ :=
      recordAll_looks sound own (checked h valid) takes taken registered
    have whole : recorded = (.ok h.size, last) := success
    rw [whole]
    exact ⟨rfl, looks.sameReads_of_withJournal⟩
  · obtain ⟨middle, last, one, other, both⟩ :=
      replay_two_of_own sound own (checked h first) (checked g second)
    obtain ⟨all, joined, run, samples⟩ := History.exists_joined metric
    have valid : Valid all := by
      intro s member
      rw [samples] at member
      exact (List.mem_append.1 member).elim (first s) (second s)
    obtain ⟨next, replayed, taken, -⟩ := replay_of_own sound own (checked all valid)
    have size : all.size = h.size + g.size := by rw [History.size, samples, List.length_append]; rfl
    rw [one]
    simp only
    rw [other]
    refine ⟨rfl, all, joined, ?_, ?_⟩
    · rw [replayed, size]
    · rw [replayed]
      exact (both.looks_of_joined taken (congrArg Series.run metric).symm run samples).sameReads
  · obtain ⟨middle, last, one, other, both⟩ :=
      replay_two_of_own sound own (checked h first) (checked g second)
    obtain ⟨center, final, two, another, swapped⟩ :=
      replay_two_of_own sound own (checked g second) (checked h first)
    rw [one, two]
    simp only
    rw [other, another]
    exact ⟨rfl, rfl, (both.looks_of_swapped swapped apart).sameReads⟩
  · rw [← same] at valid invalid
    exact replay_of_invalid store split valid invalid

/-- The replayed samples tie with a recorded one, and come before another one; the logbook that is recorded
into has just room for them. -/
theorem replay_behind_tied_sample :
    let loss (value : UInt64) (time : Int64) : Sample := ⟨"loss", ⟨value⟩, time, 1⟩
    let store : Store RunSet Scripted :=
      (empty {} (.own RunSet.empty) ⟨[], [], none, 0⟩).after
        [.call (.register "run"), .call (.record "run" (loss 0x3ff0000000000000 2))]
    let h : History := ⟨"run", "loss", [loss 0x4000000000000000 2, loss 0 1], by decide⟩
    let recorded := ((store.register "run").2.withJournal (Logbook.empty (some 2))).recordAll "run"
      h.samples
    (store.replay h).1 = .ok 2 ∧ SameReads (store.replay h).2 recorded.2 ∧
      recorded.2.journal.size = 2 ∧
      SameReads ((store.replay h).2.replay (.empty "other" "loss")).2
        ((store.replay (.empty "other" "loss")).2.replay h).2 := by
  intro loss store h recorded
  obtain ⟨-, alone, -, swapped, -⟩ := replaying_agrees_with_recording (τ := Logbook) (ρ := RunSet) {}
    RunSet.empty (⟨[], [], none, 0⟩ : Scripted)
    [.call (.register "run"), .call (.record "run" (loss 0x3ff0000000000000 2))]
  have valid : ∀ s ∈ h.samples, s.check false = .ok () := by decide
  have nothing : ∀ s ∈ (History.empty "other" "loss").samples, s.check false = .ok () := by decide
  obtain ⟨size, agree⟩ := alone h valid
  have takes : Journal.Takes (Logbook.empty (some 2)) "run" h.samples := ⟨by decide, by decide, trivial⟩
  exact ⟨size, (agree (Logbook.empty (some 2)) takes).2, by decide,
    (swapped h (.empty "other" "loss") valid nothing (by decide)).2.2⟩

end Store

end RunMetrics

import RunMetrics.Proofs.AppendLog
import RunMetrics.Proofs.LogbookCount
import RunMetrics.Proofs.Resubmission

/-!
Batches over a logbook. A batch comes to an end at the first sample that is not valid, or that the logbook
has no room for, whichever is earlier; where one sample is both, its value is to blame. The samples
before it are in the histories and in the logbook, and those behind it make no difference.
-/

set_option autoImplicit false

namespace RunMetrics

open Snapshot (Row samplesOf)

namespace Logbook

/-- How many samples of a batch go in: those before the first that is not valid, as far as there is
room. -/
def fitting (l : Logbook) (allowNegative : Bool) (samples : List Sample) : Nat :=
  min (samples.findIdx fun s => !(s.check allowNegative).isOk) (l.limit - l.size)

/-- Why a sample does not go in: it is not valid, or else the logbook is full. -/
def refusal (l : Logbook) (allowNegative : Bool) (run : String) (s : Sample) : Failure :=
  match s.check allowNegative with
  | .error f => f
  | .ok () => l.full run s.key

/-- The answer to a batch: its length if it goes in whole, and otherwise why the first sample that does
not go in is refused. -/
def batchAnswer (l : Logbook) (allowNegative : Bool) (run : String) (samples : List Sample) :
    Except Failure Nat :=
  match samples[l.fitting allowNegative samples]? with
  | none => .ok samples.length
  | some s => .error (l.refusal allowNegative run s)

variable {l next : Logbook} {allowNegative : Bool} {run : String} {s : Sample}

theorem fitting_cons_of_invalid (l : Logbook) {f : Failure} (invalid : s.check allowNegative = .error f)
    (rest : List Sample) : l.fitting allowNegative (s :: rest) = 0 := by
  rw [fitting, List.findIdx_cons, invalid]
  exact Nat.zero_min _

theorem fitting_of_full (full : ¬ l.held < l.limit) (samples : List Sample) :
    l.fitting allowNegative samples = 0 := by
  rw [fitting, size]
  omega

/-- A sample that is taken uses up one place. -/
theorem fitting_cons_of_taken (valid : s.check allowNegative = .ok ())
    (taken : l.append run s = (.ok (), next)) (rest : List Sample) :
    l.fitting allowNegative (s :: rest) = next.fitting allowNegative rest + 1 := by
  obtain ⟨room, held, -⟩ := append_eq_ok taken
  rw [fitting, fitting, List.findIdx_cons, valid, size, size, limit_of_taken taken, held]
  simp only [Except.isOk, Except.toBool, Bool.not_true, cond_false]
  omega

theorem fitting_take (l : Logbook) (allowNegative : Bool) (samples : List Sample) (n : Nat) :
    l.fitting allowNegative (samples.take n) = min n (l.fitting allowNegative samples) := by
  rw [fitting, List.findIdx_take, Nat.min_assoc, fitting]

theorem fitting_le_length (l : Logbook) (allowNegative : Bool) (samples : List Sample) :
    l.fitting allowNegative samples ≤ samples.length :=
  (Nat.min_le_left _ _).trans List.findIdx_le_length

theorem refusal_of_taken (taken : l.append run s = (.ok (), next)) (t : Sample) :
    next.refusal allowNegative run t = l.refusal allowNegative run t := by
  rw [refusal, full, limit_of_taken taken, refusal, full]

/-- The answer to the rest of a batch, with one sample more. -/
theorem batchAnswer_cons_of_taken (valid : s.check allowNegative = .ok ())
    (taken : l.append run s = (.ok (), next)) (rest : List Sample) :
    l.batchAnswer allowNegative run (s :: rest) =
      (next.batchAnswer allowNegative run rest).map (· + 1) := by
  rw [batchAnswer, fitting_cons_of_taken valid taken, List.getElem?_cons_succ, batchAnswer]
  cases rest[next.fitting allowNegative rest]? with
  | none => rfl
  | some t => exact congrArg Except.error (refusal_of_taken taken t).symm

/-- The first sample of a batch that is not valid breaks a rule, and those before it none. -/
theorem check_at_findIdx {samples : List Sample} {k : Nat} (here : samples[k]? = some s)
    (within : k ≤ samples.findIdx fun t => !(t.check allowNegative).isOk) :
    (∃ f, s.check allowNegative = .error f) ↔
      k = samples.findIdx fun t => !(t.check allowNegative).isOk := by
  obtain ⟨short, same⟩ := List.getElem?_eq_some_iff.1 here
  constructor
  · rintro ⟨f, invalid⟩
    by_contra apart
    have passing := List.not_of_lt_findIdx (Nat.lt_of_le_of_ne within apart)
    rw [same, invalid] at passing
    cases passing
  · intro first
    subst first
    have failing := List.findIdx_getElem (w := short)
    rw [same] at failing
    cases invalid : s.check allowNegative with
    | error f => exact ⟨f, rfl⟩
    | ok =>
      rw [invalid] at failing
      cases failing

end Logbook

namespace Store

variable {ρ : Type} [Roster ρ]

section Journals

variable {σ : Type} [Journal σ] {run : String}

/-- Of a run that is not known nothing is recorded. -/
theorem recordAll_of_unknown (store : Store ρ σ) (unknown : store.knows run = false)
    (samples : List Sample) :
    (store.recordAll run samples).2.slots = store.slots ∧
      (store.recordAll run samples).2.journal = store.journal ∧
      (store.recordAll run samples).1 =
        match samples with
        | [] => .ok 0
        | s :: _ =>
          match s.check store.settings.allowNegative with
          | .error f => .error f
          | .ok () => .error (.unknownRun run) := by
  cases samples with
  | nil => exact ⟨rfl, rfl, rfl⟩
  | cons s rest =>
    cases valid : s.check store.settings.allowNegative with
    | error f =>
      rw [recordAll_cons_of_error (record_of_invalid store run s valid)]
      simp only [valid, and_self]
    | ok =>
      rw [recordAll_cons_of_error (record_of_unknown store run s valid unknown)]
      simp only [valid, asked, and_self]

/-- Samples behind one that is refused make no difference. -/
theorem recordAll_append_of_error (store : Store ρ σ) {front : List Sample} {f : Failure}
    (failed : (store.recordAll run front).1 = .error f) (others : List Sample) :
    store.recordAll run (front ++ others) = store.recordAll run front := by
  induction front generalizing store f with
  | nil => cases failed
  | cons s rest ih =>
    rw [List.cons_append]
    rcases recorded : store.record run s with ⟨g | _, next⟩
    · rw [recordAll_cons_of_error recorded, recordAll_cons_of_error recorded]
    · rw [recordAll_cons_of_ok recorded] at failed ⊢
      rw [recordAll_cons_of_ok recorded]
      cases counted : (next.recordAll run rest).1 with
      | error g => rw [ih next counted, counted]
      | ok n =>
        rw [counted] at failed
        cases failed

end Journals

/-! ### What fits of a batch -/

/-- What fits of a batch is recorded and the logbook has taken it, and the answer says so. -/
structure RecordsFitting (store : Store ρ Logbook) (run : String) (samples : List Sample) : Prop where
  rows : store.recordedRows run samples =
    (samples.take (store.journal.fitting store.settings.allowNegative samples)).map (⟨run, ·⟩)
  took : store.journal.Took (store.recordAll run samples).2.journal
    (store.recordedRows run samples)
  answer : (store.recordAll run samples).1 =
    store.journal.batchAnswer store.settings.allowNegative run samples

variable {store next : Store ρ Logbook} {run : String} {s : Sample}

/-- Nothing of a batch fits if its first sample is refused. -/
theorem recordsFitting_of_refused {f : Failure} (refused : store.record run s = (.error f, next))
    (journal : next.journal = store.journal) {rest : List Sample}
    (nothing : store.journal.fitting store.settings.allowNegative (s :: rest) = 0)
    (reason : store.journal.refusal store.settings.allowNegative run s = f) :
    store.RecordsFitting run (s :: rest) := by
  have none_recorded : store.recordedRows run (s :: rest) = [] := by rw [recordedRows, refused]
  refine ⟨?_, ?_, ?_⟩
  · rw [none_recorded, nothing, List.take_zero, List.map_nil]
  · rw [none_recorded, recordAll_cons_of_error refused, journal]
    exact .nil store.journal
  · rw [recordAll_cons_of_error refused, Logbook.batchAnswer, nothing, List.getElem?_cons_zero]
    exact congrArg Except.error reason.symm

/-- A sample goes in front of what fits of the others. -/
theorem RecordsFitting.cons {rest : List Sample} (others : next.RecordsFitting run rest)
    (recorded : store.record run s = (.ok (), next)) (settings : next.settings = store.settings)
    (valid : s.check store.settings.allowNegative = .ok ())
    (taken : store.journal.append run s = (.ok (), next.journal)) :
    store.RecordsFitting run (s :: rest) := by
  have first : store.recordedRows run (s :: rest) = ⟨run, s⟩ :: next.recordedRows run rest := by
    rw [recordedRows, recorded]
  obtain ⟨rows, took, answer⟩ := others
  rw [settings] at rows answer
  refine ⟨?_, ?_, ?_⟩
  · rw [first, rows, Logbook.fitting_cons_of_taken valid taken, List.take_succ_cons, List.map_cons]
  · rw [first, recordAll_cons_of_ok recorded]
    exact .cons taken took
  · rw [recordAll_cons_of_ok recorded, answer, Logbook.batchAnswer_cons_of_taken valid taken]

theorem recordsFitting (sound : store.Sound) (vouches : store.registration.Vouches run)
    (samples : List Sample) : store.RecordsFitting run samples := by
  -- The first sample is not valid, or the logbook is full, or the sample goes in and takes one place.
  induction samples generalizing store with
  | nil => exact ⟨rfl, .nil _, rfl⟩
  | cons s rest ih =>
    cases valid : s.check store.settings.allowNegative with
    | error f =>
      refine recordsFitting_of_refused (record_of_invalid store run s valid) rfl
        (store.journal.fitting_cons_of_invalid valid rest) ?_
      rw [Logbook.refusal, valid]
    | ok =>
      by_cases room : store.journal.held < store.journal.limit
      · have taken := Logbook.append_of_room room run s
        obtain ⟨slots, recorded, grown⟩ :=
          record_of_taken store sound run s valid vouches.contains taken
        have later : Store.Sound { store.asked run with
            journal := (store.journal.append run s).2, slots } := grown.sound
        exact (ih later (vouches.asked run)).cons recorded rfl valid taken
      · obtain ⟨slots, refused, -⟩ := record_of_refused store sound run s valid vouches.contains
          (Logbook.append_of_full room run s)
        refine recordsFitting_of_refused refused rfl (Logbook.fitting_of_full room _) ?_
        rw [Logbook.refusal, valid]

/-- What the parts of a batch that do and do not fit amount to. -/
theorem RecordsFitting.answer_eq_ok_iff {samples : List Sample} (fits : store.RecordsFitting run samples) :
    (store.recordAll run samples).1 = .ok samples.length ↔
      store.journal.fitting store.settings.allowNegative samples = samples.length := by
  have within := store.journal.fitting_le_length store.settings.allowNegative samples
  rw [fits.answer, Logbook.batchAnswer]
  constructor
  · intro success
    by_contra short
    rw [List.getElem?_eq_getElem (by omega)] at success
    cases success
  · intro whole
    rw [List.getElem?_eq_none (by omega)]

theorem RecordsFitting.answer_of_short {samples : List Sample} (fits : store.RecordsFitting run samples)
    (last : samples[store.journal.fitting store.settings.allowNegative samples]? = some s) :
    (store.recordAll run samples).1 =
      .error (store.journal.refusal store.settings.allowNegative run s) := by
  rw [fits.answer, Logbook.batchAnswer, last]

/-- What stands behind the first sample that does not fit may as well be something else. -/
theorem recordAll_of_short (sound : store.Sound) (vouches : store.registration.Vouches run)
    {samples : List Sample} {k : Nat}
    (fitting : store.journal.fitting store.settings.allowNegative samples = k)
    (last : samples[k]? = some s) (others : List Sample) :
    store.recordAll run (samples.take (k + 1) ++ others) = store.recordAll run samples := by
  have front : (samples.take (k + 1))[store.journal.fitting store.settings.allowNegative
      (samples.take (k + 1))]? = some s := by
    rw [Logbook.fitting_take, fitting, Nat.min_eq_right (Nat.le_succ k), List.getElem?_take,
      if_pos (Nat.lt_succ_self k), last]
  have refused := (recordsFitting sound vouches (samples.take (k + 1))).answer_of_short front
  calc store.recordAll run (samples.take (k + 1) ++ others)
      = store.recordAll run (samples.take (k + 1)) := recordAll_append_of_error store refused others
    _ = store.recordAll run (samples.take (k + 1) ++ samples.drop (k + 1)) :=
        (recordAll_append_of_error store refused _).symm
    _ = store.recordAll run samples := by rw [List.take_append_drop]

/-- A batch over a logbook that may hold samples of others, and over which the store need not have been
filled. The samples that go in are those before the first that is not valid, as far as the logbook has
room; the histories and the logbook get the same ones. The batch succeeds if that is all of it. If not,
the next sample is refused, for its value if it is not valid, even where there is no room for it either,
and otherwise because the logbook is full; any samples may stand behind it. Of a run that is not known
nothing is recorded. -/
theorem batch_stops_at_capacity {σ : Type} [Journal σ] (settings : Settings)
    (registration : Registration ρ) (journal : σ) (events : List (Event ρ)) (book : Logbook)
    (run : String) (samples : List Sample) :
    let store := ((empty settings registration journal).after events).withJournal book
    let result := store.recordAll run samples
    let invalid := samples.findIdx fun s => !(s.check settings.allowNegative).isOk
    let k := min invalid (book.limit - book.size)
    let front : List Row := (samples.take k).map (⟨run, ·⟩)
    (store.registration.Vouches run →
      (result.1 = .ok samples.length ↔ k = samples.length) ∧
      (∀ series, (result.2.slot series).history.samples =
          (store.slot series).history.samples ++ samplesOf series front ∧
        result.2.journal.log series = book.log series ++ samplesOf series front) ∧
      result.2.journal.size = book.size + k ∧
      ∀ s, samples[k]? = some s →
        (k = invalid → ∃ f, s.check settings.allowNegative = .error f ∧ f.isRefusal = true ∧
          result.1 = .error f) ∧
        (k ≠ invalid → result.1 = .error (book.full run s.key)) ∧
        ∀ others, store.recordAll run (samples.take (k + 1) ++ others) = result) ∧
    (store.knows run = false →
      result.2.slots = store.slots ∧ result.2.journal = book ∧
        result.1 =
          match samples with
          | [] => .ok 0
          | s :: _ =>
            match s.check settings.allowNegative with
            | .error f => .error f
            | .ok () => .error (.unknownRun run)) := by
  intro store result invalid k front
  have sound : store.Sound := after_sound settings registration journal events
  have same : store.settings = settings := settings_after settings registration journal events
  constructor
  · intro vouches
    have fits := recordsFitting sound vouches samples
    have fitting : book.fitting store.settings.allowNegative samples = k := by
      rw [same]
      rfl
    have recorded := recordAll_extends store sound run samples
    have entered : store.recordedRows run samples = front := by
      rw [fits.rows, same]
      rfl
    have took := fits.took
    rw [entered] at recorded took
    refine ⟨?_, fun series => ⟨recorded.slots.samples series, took.log_eq series⟩, ?_, ?_⟩
    · rw [← fitting]
      exact fits.answer_eq_ok_iff
    · have within : k ≤ samples.length := fitting ▸ book.fitting_le_length _ samples
      rw [took.size_eq, List.length_map, List.length_take, Nat.min_eq_left within]
      rfl
    · intro s here
      have cause := Logbook.check_at_findIdx here (Nat.min_le_left _ _)
      have answer : result.1 = .error (book.refusal settings.allowNegative run s) := by
        rw [← same]
        apply fits.answer_of_short
        rw [← here, ← fitting]
        rfl
      refine ⟨fun first => ?_, fun later => ?_, fun others => ?_⟩
      · obtain ⟨f, wrong⟩ := cause.2 first
        refine ⟨f, wrong, check_isRefusal wrong, ?_⟩
        rw [answer, Logbook.refusal, wrong]
      · cases checked : s.check settings.allowNegative with
        | error f => exact absurd (cause.1 ⟨f, checked⟩) later
        | ok => rw [answer, Logbook.refusal, checked]
      · exact recordAll_of_short sound vouches fitting here others
  · intro unknown
    rw [← same]
    exact recordAll_of_unknown store unknown samples

/-- Three places, one of them taken by another run: the third sample of the batch is not valid, and there
is no room for it either. -/
theorem batch_of_two_metrics_at_capacity :
    let loss (step : Int64) : Sample := ⟨"loss", ⟨0⟩, 0, step⟩
    let accuracy : Sample := ⟨"accuracy", .nan, 0, 1⟩
    let book : Logbook := ((Logbook.empty (some 3)).append "other" (loss 0)).2
    let store : Store RunSet Logbook :=
      ((empty {} (.own RunSet.empty) Silent.mk).after [.call (.register "run")]).withJournal book
    let result := store.recordAll "run" [loss 1, accuracy, loss (-1), loss 2]
    result.1 = .error (.refused (.negativeStep "loss" (-1))) ∧ result.2.journal.size = 3 ∧
      (result.2.slot ⟨"run", "loss"⟩).history.samples = [loss 1] ∧
      result.2.journal.log ⟨"run", "accuracy"⟩ = [accuracy] ∧
      (store.recordAll "unknown" [loss 1]).1 = .error (.unknownRun "unknown") := by
  intro loss accuracy book store result
  have stops (run : String) (samples : List Sample) := batch_stops_at_capacity {}
    (.own RunSet.empty : Registration RunSet) Silent.mk [.call (.register "run")] book run samples
  have vouches : store.registration.Vouches "run" :=
    (Registration.vouches_own_iff _ _).2 (by decide)
  obtain ⟨-, kept, size, refused⟩ := (stops "run" [loss 1, accuracy, loss (-1), loss 2]).1 vouches
  obtain ⟨wrong, -, -⟩ := refused (loss (-1)) (by decide)
  obtain ⟨f, cause, -, answer⟩ := wrong (by decide)
  cases cause
  refine ⟨answer, size, (kept _).1.trans (by decide), (kept _).2.trans (by decide), ?_⟩
  exact ((stops "unknown" [loss 1]).2 (by decide)).2.2

end Store

end RunMetrics

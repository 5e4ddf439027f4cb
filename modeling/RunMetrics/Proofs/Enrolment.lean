import RunMetrics.Proofs.RegistrationSteps
import RunMetrics.Proofs.RunProjections

/-!
Who registers runs. Where the store does so itself, a run is known if it was registered, or a history
of it was replayed, by a call that succeeded; no other call makes it known. A roster that is kept
elsewhere is only ever asked, except by calls that register.
-/

set_option autoImplicit false

namespace RunMetrics

open Snapshot (Row rowsRead)

namespace Store

/-- The runs that a call makes known if it succeeds, where the store registers runs itself: the one that
is registered or replayed, even without samples, and those with rows in a snapshot. Recording, setting
notes and reading make none known. -/
def Call.enrols : Call → List String
  | .register run => [run]
  | .replay h => [h.run]
  | .replayJournal run _ => [run]
  | .importSnapshot read => (rowsRead read).map Row.run
  | _ => []

variable {ρ σ : Type}

/-- A call among events is the last of them, or among those before. -/
theorem exists_call_concat_iff (earlier : List (Event ρ)) (event : Event ρ)
    (good : List (Event ρ) → Call → Prop) :
    (∃ before call rest, earlier ++ [event] = before ++ .call call :: rest ∧ good before call) ↔
      (∃ before call rest, earlier = before ++ .call call :: rest ∧ good before call) ∨
        ∃ call, event = .call call ∧ good earlier call := by
  constructor
  · rintro ⟨before, call, rest, split, here⟩
    rcases List.eq_nil_or_concat rest with rfl | ⟨others, last, rfl⟩
    · obtain ⟨rfl, same⟩ := List.append_inj' split rfl
      exact Or.inr ⟨call, List.head_eq_of_cons_eq same, here⟩
    · rw [List.concat_eq_append, ← List.cons_append, ← List.append_assoc] at split
      exact Or.inl ⟨before, call, others, (List.append_inj' split rfl).1, here⟩
  · rintro (⟨before, call, rest, rfl, here⟩ | ⟨call, rfl, here⟩)
    · exact ⟨before, call, rest ++ [event], by simp, here⟩
    · exact ⟨earlier, call, [], rfl, here⟩

section Adds

/-- The store still registers runs itself, and knows the given ones besides if the operation succeeded. -/
def Adds {α : Type} (runs : RunSet) (named : List String) (outcome : Except Failure α × Store ρ σ) :
    Prop :=
  ∃ more, outcome.2.registration = .own more ∧ ∀ run, more.contains run = true ↔
    runs.contains run = true ∨ outcome.1.isOk = true ∧ run ∈ named

variable {runs : RunSet} {α : Type}

theorem adds_of_error {store : Store ρ σ} (own : store.registration = .own runs)
    (named : List String) (f : Failure) : Adds runs named ((.error f : Except Failure α), store) :=
  ⟨runs, own, fun run => by simp [Except.isOk, Except.toBool]⟩

theorem adds_nil {outcome : Except Failure α × Store ρ σ}
    (own : outcome.2.registration = .own runs) : Adds runs [] outcome :=
  ⟨runs, own, fun run => by simp⟩

theorem Adds.map {β : Type} {named : List String} {outcome : Except Failure α × Store ρ σ}
    (adds : Adds runs named outcome) (reply : α → β) :
    Adds runs named (outcome.1.map reply, outcome.2) := by
  obtain ⟨more, own, contains⟩ := adds
  refine ⟨more, own, fun run => (contains run).trans ?_⟩
  cases outcome.1 <;> exact Iff.rfl

end Adds

variable [Roster ρ]

/-! ### The store's own runs -/

section Own

variable {store : Store ρ σ} {runs : RunSet}

theorem askedAll_of_own (own : store.registration = .own runs) (asked : List String) :
    store.askedAll asked = store := by
  rw [askedAll, own, Registration.foldl_asked_own, ← own]

/-- Where the store registers runs itself, a history whose samples are valid goes in, and its run is
registered. -/
theorem replay_of_own (sound : store.Sound) (own : store.registration = .own runs) {h : History}
    (valid : ∀ s ∈ h.samples, s.check store.settings.allowNegative = .ok ()) :
    ∃ next, store.replay h = (.ok h.size, next) ∧ Replayed store next [h] ∧
      next.registration = .own (runs.register h.run).2 := by
  have passed : (store.checkReplay h).1 = .ok () := by
    rw [checkReplay_eq_ok_iff, Registration.admits, own]
    exact ⟨valid, rfl⟩
  obtain ⟨asked, questions⟩ := checkReplay_snd store h
  obtain ⟨slots, replayed, grown⟩ := replay_of_admitted store sound h passed
  rw [questions, askedAll_of_own own] at replayed
  have enrolled := Registration.enrolled_enrol store.registration h.run
  exact ⟨_, replayed, ⟨⟨_, slots, rfl⟩, grown, enrolled⟩, congrArg (fun r => r.enrol h.run) own⟩

theorem replay_adds (sound : store.Sound) (own : store.registration = .own runs) (h : History) :
    Adds runs [h.run] (store.replay h) := by
  cases passed : (store.checkReplay h).1 with
  | error f =>
    obtain ⟨asked, questions⟩ := checkReplay_snd store h
    rw [replay_of_refused store h passed, questions, askedAll_of_own own]
    exact adds_of_error own [h.run] f
  | ok =>
    obtain ⟨next, replayed, -, registered⟩ :=
      replay_of_own sound own (checkReplay_valid store h passed)
    rw [replayed]
    refine ⟨_, registered, fun run => ?_⟩
    rw [RunSet.contains_register, or_comm]
    simp [Except.isOk, Except.toBool]

/-- With runs of its own the store admits every run, so histories whose samples are valid all go in. -/
theorem replayAll_of_own (sound : store.Sound) (own : store.registration = .own runs)
    {histories : List History}
    (valid : ∀ h ∈ histories, ∀ s ∈ h.samples, s.check store.settings.allowNegative = .ok ()) :
    (∃ n, (store.replayAll histories).1 = .ok n) ∧
      Adds runs (histories.map History.run) (store.replayAll histories) := by
  induction histories generalizing store runs with
  | nil => exact ⟨⟨0, rfl⟩, adds_nil own⟩
  | cons h rest ih =>
    rw [List.forall_mem_cons] at valid
    obtain ⟨next, replayed, taken, registered⟩ := replay_of_own sound own valid.1
    have still : ∀ g ∈ rest, ∀ s ∈ g.samples, s.check next.settings.allowNegative = .ok () := by
      rw [taken.settings]
      exact valid.2
    obtain ⟨⟨n, all⟩, more, registration, contains⟩ := ih taken.sound registered still
    rw [replayAll_cons, replayed, andThen]
    rw [all] at contains
    rcases others : next.replayAll rest with ⟨answer, last⟩
    rw [others] at all registration
    cases all
    refine ⟨⟨h.size + n, rfl⟩, more, registration, fun run => (contains run).trans ?_⟩
    rw [RunSet.contains_register, List.map_cons, List.mem_cons]
    simp only [andThen, Except.isOk, Except.toBool, true_and]
    rw [or_comm (a := run = h.run), or_assoc]

theorem checkAll_of_own (own : store.registration = .own runs) {histories : List History}
    (passed : (store.checkAll histories).1 = .ok ()) :
    ∀ h ∈ histories, (store.checkReplay h).1 = .ok () := by
  induction histories with
  | nil => exact fun _ member => (List.not_mem_nil member).elim
  | cons h rest ih =>
    obtain ⟨asked, questions⟩ := checkReplay_snd store h
    rw [askedAll_of_own own] at questions
    rw [checkAll_cons] at passed
    rcases checked : store.checkReplay h with ⟨f | _, next⟩
    · rw [checked] at passed
      cases passed
    · rw [checked] at passed questions
      subst questions
      rw [List.forall_mem_cons, checked]
      exact ⟨rfl, ih passed⟩

/-- A snapshot registers the runs of its rows, if everything in it goes in. -/
theorem importSnapshot_adds (sound : store.Sound) (own : store.registration = .own runs)
    (read : Except Failure (List Snapshot.Batch)) :
    Adds runs ((rowsRead read).map Row.run) (store.importSnapshot read) := by
  cases read with
  | error f => exact adds_of_error own _ f
  | ok batches =>
    cases parsed : batches.mapM Snapshot.Batch.rows with
    | error fault =>
      simp only [importSnapshot, importBatches, Snapshot.histories_of_fault parsed]
      exact adds_of_error own _ _
    | ok parts =>
      have holds : Snapshot.Holds batches (rowsRead (.ok batches)) :=
        ⟨parts, parsed, by simp only [rowsRead, parsed]⟩
      obtain ⟨asked, questions⟩ := checkAll_snd store (Snapshot.group (rowsRead (.ok batches)))
      rw [askedAll_of_own own] at questions
      rw [importSnapshot_of_holds store holds]
      rcases checked : store.checkAll (Snapshot.group (rowsRead (.ok batches))) with ⟨f | _, next⟩
      · rw [checked] at questions
        subst questions
        exact adds_of_error own _ f
      · rw [checked] at questions
        subst questions
        have passed := checkAll_of_own own (congrArg Prod.fst checked)
        obtain ⟨-, more, registered, contains⟩ := replayAll_of_own sound own fun h member =>
          checkReplay_valid _ h (passed h member)
        simp only [Snapshot.mem_runs_group] at contains
        exact ⟨more, registered, contains⟩

variable [Journal σ]

/-- Every call adds to the store's own runs those that it names, if it succeeds. -/
theorem perform_adds (sound : store.Sound) (own : store.registration = .own runs) (call : Call) :
    Adds runs call.enrols (store.perform call) := by
  have asking (quiet : Call) (never : ∀ run, quiet ≠ .register run) (recorded : quiet.replays = false)
      (none_named : quiet.enrols = []) : Adds runs quiet.enrols (store.perform quiet) := by
    let kept (r : Registration ρ) : Prop := r = .own runs
    have asked (r : Registration ρ) (run : String) : kept r → kept (r.asked run) := by
      rintro rfl
      rfl
    have still : kept (store.perform quiet).2.registration :=
      kept_perform_of_asks asked store quiet never recorded own
    rw [none_named]
    exact adds_nil still
  cases call with
  | register run =>
    refine ⟨(runs.register run).2, congrArg (fun r => (r.register run).2) own, fun other => ?_⟩
    rw [RunSet.contains_register, or_comm, Call.enrols, List.mem_singleton]
    simp [perform, Except.isOk, Except.toBool]
  | replay h => exact (replay_adds sound own h).map _
  | replayJournal run key =>
    refine Adds.map ?_ _
    unfold replayJournal
    rcases Journal.load store.journal run key with ⟨f | samples, journal⟩
    · exact adds_of_error own [run] f
    · simp only
      cases built : History.ofSamples run key samples with
      | error f => exact adds_of_error own [run] f
      | ok h =>
        have loaded : ({ store with journal } : Store ρ σ).Sound := sound
        have replayed := replay_adds loaded own h
        rw [(History.ofSamples_eq_ok built).1] at replayed
        exact replayed
  | importSnapshot read => exact (importSnapshot_adds sound own read).map _
  | _ => exact asking _ (fun run same => by cases same) rfl rfl

/-- A run is known if it was known before, or if a call that names it has succeeded since. -/
theorem after_own (sound : store.Sound) (own : store.registration = .own runs)
    (events : List (Event ρ)) :
    ∃ more, (store.after events).registration = .own more ∧ ∀ run, more.contains run = true ↔
      runs.contains run = true ∨ ∃ before call rest, events = before ++ .call call :: rest ∧
        ((store.after before).perform call).1.isOk = true ∧ run ∈ call.enrols := by
  -- From the end, since a call answers as the events before it have left the store.
  induction events using List.reverseRecOn with
  | nil => exact ⟨runs, own, fun run => by simp⟩
  | append_singleton earlier event ih =>
    obtain ⟨middle, registered, known⟩ := ih
    have middleSound : (store.after earlier).Sound := by
      obtain ⟨rows, extended⟩ := after_extends store sound earlier
      exact extended.sound
    have unfolded : store.after (earlier ++ [event]) = (store.after earlier).step event := by
      rw [after, List.foldl_append, List.foldl_cons, List.foldl_nil, after]
    rw [unfolded]
    cases event with
    | call call =>
      obtain ⟨more, last, contains⟩ := perform_adds middleSound registered call
      refine ⟨more, last, fun run => ?_⟩
      rw [contains, known, exists_call_concat_iff _ _ fun before call =>
        ((store.after before).perform call).1.isOk = true ∧ run ∈ call.enrols, or_assoc]
      simp
    | moved roster =>
      refine ⟨middle, congrArg (fun r => r.moved roster) registered, fun run => ?_⟩
      rw [known, exists_call_concat_iff _ _ fun before call =>
        ((store.after before).perform call).1.isOk = true ∧ run ∈ call.enrols]
      simp

/-- A call that names no run, or that fails, leaves the store's own runs as they are. -/
theorem registration_of_none_enrolled (sound : store.Sound) (own : store.registration = .own runs)
    {call : Call} (nothing : call.enrols = [] ∨ ∃ f, (store.perform call).1 = .error f) :
    (store.perform call).2.registration = store.registration := by
  obtain ⟨more, registered, contains⟩ := perform_adds sound own call
  have same : more = runs := by
    apply RunSet.ext_contains
    intro run
    rw [Bool.eq_iff_iff, contains]
    rcases nothing with unnamed | ⟨f, failed⟩
    · simp [unnamed]
    · simp [failed, Except.isOk, Except.toBool]
  rw [registered, own, same]

theorem register_of_own (own : store.registration = .own runs) (run : String) :
    (store.perform (.register run)).1 = .ok (.flag (!store.knows run)) := by
  have answer : (store.register run).1 = !store.knows run := by
    rw [register, knows, own]
    change (runs.register run).1 = !runs.contains run
    rw [RunSet.register]
    cases runs.contains run <;> rfl
  rw [perform, answer]

end Own

/-! ### Runs with notes -/

section Noted

variable {store : Store ρ σ}

theorem knows_of_noted {book : Notebook} {run : String} {call : Call}
    (noted : store.noted book run call ≠ []) : store.knows run = true := by
  cases call with
  | setParam owner name text =>
    rw [Store.noted] at noted
    split at noted
    · rename_i known
      exact known.2.2 ▸ known.1
    · exact absurd rfl noted
  | setTag owner name text =>
    rw [Store.noted] at noted
    split at noted
    · rename_i known
      exact known.2.2 ▸ known.1
    · exact absurd rfl noted
  | _ => exact absurd rfl noted

variable [Journal σ]

/-- A run whose notes have changed is known, if no run is forgotten. -/
theorem Remembers.knows_of_notes_ne {events : List (Event ρ)} (sound : store.Sound)
    (remembers : store.Remembers events) (book : Notebook) (run : String)
    (changed : ((store.after events).notes book).entries run ≠ (store.notes book).entries run) :
    (store.after events).knows run = true := by
  induction events generalizing store with
  | nil => exact absurd rfl changed
  | cons event rest ih =>
    obtain ⟨first, tail⟩ := remembers.step_advance sound
    have later := tail.after_advance first.sound
    cases event with
    | call call =>
      by_cases quiet : store.noted book run call = []
      · refine ih first.sound tail fun same => changed (same.trans ?_)
        refine (perform_notes store book run call).trans ?_
        rw [quiet]
        rfl
      · exact later.known run (first.known run (knows_of_noted quiet))
    | moved roster =>
      refine ih first.sound tail fun same => changed (same.trans ?_)
      cases book <;> rfl

end Noted

/-- A store that registers runs itself knows a run if and only if a call has registered it, or replayed
a history of it, and succeeded; registering answers whether the run was new, and calls that fail, record,
set notes or read change no run. Of a roster that is kept elsewhere nothing is asked but questions until
a call registers, so a roster that questions leave alone stays as it is. If no run is forgotten, as none
is of a store that registers runs itself, every run that has samples, params or tags is known, so that
they can be read. -/
theorem known_runs_are_enrolled [Journal σ] (settings : Settings) (registration : Registration ρ)
    (journal : σ) (events : List (Event ρ)) :
    let start := empty settings registration journal
    let store := start.after events
    (registration = .own RunSet.empty →
      (∀ run, store.knows run = true ↔
        ∃ before call rest, events = before ++ .call call :: rest ∧
          ((start.after before).perform call).1.isOk = true ∧ run ∈ call.enrols) ∧
        (∀ run, (store.perform (.register run)).1 = .ok (.flag (!store.knows run))) ∧
        ∀ call, (call.enrols = [] ∨ ∃ f, (store.perform call).1 = .error f) →
          (store.perform call).2.registration = store.registration) ∧
      (∀ roster, store.registration = .shared roster →
        ∀ calls : List Call, (∀ call ∈ calls, ∀ run, call ≠ .register run) →
          (∃ runs : List String, (store.after (calls.map .call)).registration =
            .shared (runs.foldl Roster.asked roster)) ∧
            ((∀ (r : ρ) (run : String), Roster.asked r run = r) →
              (store.after (calls.map .call)).registration = .shared roster)) ∧
      (registration.isOwn = true → start.Remembers events) ∧
      (start.Remembers events →
        (∀ series, (store.slot series).history.samples ≠ [] →
          store.knows series.run = true ∧
            store.history series.run series.key = .ok (store.slot series).history) ∧
          ∀ book run name text, (store.notes book).get? run name = some text →
            store.knows run = true ∧ ∃ shown, store.overview run = .ok shown ∧
              shown.params = store.params.entries run ∧ shown.tags = store.tags.entries run) := by
  intro start store
  have startSound : start.Sound := empty_sound settings registration journal
  have sound : store.Sound := after_sound settings registration journal events
  refine ⟨?_, ?_, fun own => startSound.remembers_of_isOwn own events, ?_⟩
  · rintro rfl
    obtain ⟨runs, own, known⟩ := after_own startSound rfl events
    refine ⟨fun run => ?_, register_of_own own, fun call => registration_of_none_enrolled sound own⟩
    change store.registration.contains run = true ↔ _
    rw [own]
    refine (known run).trans (or_iff_right ?_)
    exact fun impossible => nomatch impossible
  · intro roster shared calls never
    obtain ⟨runs, questions⟩ := after_shared store shared calls never
    refine ⟨⟨runs, questions⟩, fun still => ?_⟩
    rw [questions, List.foldl_fixed' (still roster) runs]
  · intro remembers
    have advance := remembers.after_advance startSound
    refine ⟨fun series held => ?_, fun book run name text noted => ?_⟩
    · have known := advance.known_of_held (fun _ some_held => absurd rfl some_held) series held
      exact ⟨known, by rw [history_eq, answerFor_of_known known]⟩
    · have known : store.knows run = true := by
        apply remembers.knows_of_notes_ne startSound book run
        intro same
        have found : (((start.after events).notes book).entries run).get? name = some text := noted
        rw [same] at found
        cases book <;> cases found
      refine ⟨known, (store.views run).overview, ?_, notes_views store run⟩
      rw [sound.overview_eq, answerFor_of_known known]
      rfl

/-- An empty history registers its run; a history that is refused and a sample that is do not. In a roster
that is kept elsewhere neither history registers anything. -/
theorem known_after_empty_history :
    let loss (step : Int64) : Sample := ⟨"loss", ⟨0⟩, 0, step⟩
    let start : Store RunSet Logbook := empty {} (.own RunSet.empty) (Logbook.empty none)
    let store := start.after [.call (.record "run" (loss 0)), .call (.replay (.empty "run" "loss")),
      .call (.replay ((History.empty "other" "loss").push (loss (-1)) rfl)),
      .call (.record "run" (loss 1))]
    let elsewhere : Store RunSet Logbook :=
      empty {} (.shared (RunSet.ofList ["run"])) (Logbook.empty none)
    store.knows "run" = true ∧ store.knows "other" = false ∧
      (store.perform (.register "other")).1 = .ok (.flag true) ∧
      (∃ h, store.history "run" "loss" = .ok h ∧ h.samples = [loss 1]) ∧
      (elsewhere.after [.call (.replay (.empty "run" "loss")), .call (.replay (.empty "other" "loss")),
        .call (.record "run" (loss 1))]).registration = .shared (RunSet.ofList ["run"]) := by
  intro loss start store elsewhere
  obtain ⟨enrolled, -, remembers, listed⟩ :=
    known_runs_are_enrolled {} (.own RunSet.empty : Registration RunSet)
      (Logbook.empty none) [.call (.record "run" (loss 0)), .call (.replay (.empty "run" "loss")),
        .call (.replay ((History.empty "other" "loss").push (loss (-1)) rfl)),
        .call (.record "run" (loss 1))]
  obtain ⟨known, registered, -⟩ := enrolled rfl
  have unknown : store.knows "other" = false := by decide
  have held := (listed (remembers rfl)).1 ⟨"run", "loss"⟩ (by decide)
  have untouched := (known_runs_are_enrolled {} (.shared (RunSet.ofList ["run"])) (Logbook.empty none)
    []).2.1 (RunSet.ofList ["run"]) rfl [.replay (.empty "run" "loss"), .replay (.empty "other" "loss"),
      .record "run" (loss 1)] (by simp)
  refine ⟨(known "run").2 ⟨[_], _, _, rfl, by decide, by decide⟩, unknown, ?_, ⟨_, held.2, by decide⟩,
    untouched.2 fun _ _ => rfl⟩
  refine (registered "other").trans ?_
  rw [unknown]
  rfl

end Store

end RunMetrics

import RunMetrics.Proofs.SnapshotImport
import RunMetrics.Proofs.StoreViews
import RunMetrics.Store.Call

/-!
A store as an append log. The log of a run of calls is the rows that each call accepts, one call after
the other; every history that the store shows is what the log holds of its metric.
-/

set_option autoImplicit false

namespace RunMetrics.Store

open Snapshot (Row rowsRead samplesOf)

variable {ρ σ : Type} [Roster ρ]

theorem count_replay (store : Store ρ σ) (sound : store.Sound) (h : History) {n : Nat}
    (counted : (store.replay h).1 = .ok n) : n = h.samples.length := by
  cases passed : (store.checkReplay h).1 with
  | error f =>
    rw [replay_of_refused store h passed] at counted
    cases counted
  | ok =>
    rw [sound.replay_of_passed_eq_ok passed] at counted
    cases counted
    rfl

variable [Journal σ]

/-- Whether a sample passes the three tests of recording. -/
def takes (store : Store ρ σ) (run : String) (s : Sample) : Bool :=
  (s.check store.settings.allowNegative).isOk && store.knows run &&
    (Journal.append store.journal run s).1.isOk

/-- The rows that a call accepts. -/
def accepted (store : Store ρ σ) : Call → List Row
  | .record run s => if store.takes run s then [⟨run, s⟩] else []
  | .recordAll run samples => store.recordedRows run samples
  | .replay h => rowsIfOk (store.replay h).1 (h.samples.map fun s => ⟨h.run, s⟩)
  | .replayJournal run key =>
    rowsIfOk (store.replayJournal run key).1 (store.loadedRows run key)
  | .importSnapshot read => rowsIfOk (store.importSnapshot read).1 (rowsRead read)
  | _ => []

/-- The log of events: what their calls accept, in order. -/
def acceptedDuring (store : Store ρ σ) : List (Event ρ) → List Row
  | [] => []
  | .call call :: rest => store.accepted call ++ (store.perform call).2.acceptedDuring rest
  | .moved roster :: rest => (store.step (.moved roster)).acceptedDuring rest

theorem record_of_known (store : Store ρ σ) (sound : store.Sound) (run : String) (s : Sample)
    (valid : s.check store.settings.allowNegative = .ok ()) (known : store.knows run = true) :
    (store.record run s).1 = (Journal.append store.journal run s).1 ∧
      (store.record run s).2.journal = (Journal.append store.journal run s).2 := by
  rcases answer : Journal.append store.journal run s with ⟨f | _, journal⟩
  · obtain ⟨slots, recorded, -⟩ := record_of_refused store sound run s valid known answer
    rw [recorded]
    exact ⟨rfl, rfl⟩
  · obtain ⟨slots, recorded, -⟩ := record_of_taken store sound run s valid known answer
    rw [recorded]
    exact ⟨rfl, rfl⟩

/-- Recording succeeds exactly if the three tests are passed. -/
theorem rowsIfOk_record (store : Store ρ σ) (sound : store.Sound) (run : String) (s : Sample) :
    rowsIfOk (store.record run s).1 [⟨run, s⟩] = store.accepted (.record run s) := by
  rw [accepted, takes]
  cases valid : s.check store.settings.allowNegative with
  | error f =>
    rw [record_of_invalid store run s valid]
    rfl
  | ok =>
    cases known : store.knows run with
    | false =>
      rw [record_of_unknown store run s valid known]
      rfl
    | true =>
      rw [(record_of_known store sound run s valid known).1]
      cases (Journal.append store.journal run s).1 <;> rfl

/-- What fails a check is refused for its value. -/
theorem check_isRefusal {allowNegative : Bool} {s : Sample} {f : Failure}
    (invalid : s.check allowNegative = .error f) : f.isRefusal = true := by
  unfold Sample.check at invalid
  repeat' split at invalid
  all_goals cases invalid
  all_goals rfl

theorem count_recordAll (store : Store ρ σ) (run : String) (samples : List Sample) {n : Nat}
    (counted : (store.recordAll run samples).1 = .ok n) :
    n = (store.accepted (.recordAll run samples)).length := by
  obtain ⟨length, rows⟩ := recordAll_eq_ok store run samples counted
  rw [accepted, rows, length, List.length_map]

theorem count_replayJournal (store : Store ρ σ) (sound : store.Sound) (run key : String) {n : Nat}
    (counted : (store.replayJournal run key).1 = .ok n) :
    n = (store.loadedRows run key).length := by
  unfold replayJournal loadedRows at *
  rcases answer : Journal.load store.journal run key with ⟨f | samples, journal⟩
  · rw [answer] at counted
    cases counted
  · simp only [answer] at counted ⊢
    cases built : History.ofSamples run key samples with
    | error f =>
      rw [built] at counted
      cases counted
    | ok h =>
      simp only [built] at counted
      have same := count_replay { store with journal } sound h counted
      rw [same, (History.ofSamples_eq_ok built).2.2, List.length_map]

/-- What a call other than an import adds to the log it adds to the slots. -/
theorem perform_extends_recorded (store : Store ρ σ) (sound : store.Sound) (call : Call)
    (other : ∀ read, call ≠ .importSnapshot read) :
    Extends store (store.perform call).2 (store.accepted call) := by
  cases call with
  | record run s =>
    rw [← rowsIfOk_record store sound run s]
    exact record_extends store sound run s
  | recordAll run samples => exact recordAll_extends store sound run samples
  | setParam run name text => exact setParam_extends store sound run name text
  | setTag run name text => exact setTag_extends store sound run name text
  | replay h =>
    rw [accepted, ← Snapshot.rowsOf_singleton]
    exact replay_extends store sound h
  | replayJournal run key => exact replayJournal_extends store sound run key
  | importSnapshot read => exact absurd rfl (other read)
  | _ => exact sound.extends_of_slots_eq rfl rfl

/-- What the calls among events add to the slots, the events do. -/
theorem after_extends_of_calls (events : List (Event ρ))
    (calls : ∀ (store : Store ρ σ) call, store.Sound → .call call ∈ events →
      Extends store (store.perform call).2 (store.accepted call))
    (store : Store ρ σ) (sound : store.Sound) :
    Extends store (store.after events) (store.acceptedDuring events) := by
  induction events generalizing store with
  | nil => exact sound.extends_of_slots_eq rfl rfl
  | cons event rest ih =>
    have later := ih fun store call sound member => calls store call sound (List.mem_cons_of_mem _ member)
    cases event with
    | call call =>
      have first := calls store call sound List.mem_cons_self
      exact first.trans (later (store.perform call).2 first.sound)
    | moved roster =>
      have moved : Extends store (store.step (.moved roster)) [] :=
        sound.extends_of_slots_eq rfl rfl
      exact moved.trans (later (store.step (.moved roster)) moved.sound)

variable [Roster.Steady ρ]

/-- What one call adds to the log it adds to the slots. -/
theorem perform_extends_accepted (store : Store ρ σ) (sound : store.Sound) (call : Call) :
    Extends store (store.perform call).2 (store.accepted call) := by
  cases call with
  | importSnapshot read =>
    rw [accepted, perform]
    have outcome := importSnapshot_outcome store sound read
    generalize store.importSnapshot read = result at outcome ⊢
    cases outcome with
    | refused f runs => exact sound.extends_of_slots_eq rfl rfl
    | taken extended => exact extended
  | _ => exact perform_extends_recorded store sound _ nofun

theorem after_extends_accepted (store : Store ρ σ) (sound : store.Sound)
    (events : List (Event ρ)) :
    Extends store (store.after events) (store.acceptedDuring events) :=
  after_extends_of_calls events (fun store call sound _ => perform_extends_accepted store sound call)
    store sound

theorem map_ne_count {α : Type} (outcome : Except Failure α) {reply : α → Reply}
    (never : ∀ answer n, reply answer ≠ .count n) (n : Nat) :
    outcome.map reply ≠ .ok (.count n) := by
  cases outcome with
  | error f => nofun
  | ok answer =>
    intro same
    exact never answer n (Except.ok.inj same)

theorem eq_ok_of_map_count {outcome : Except Failure Nat} {n : Nat}
    (same : outcome.map Reply.count = .ok (.count n)) : outcome = .ok n := by
  cases outcome with
  | error f => cases same
  | ok m =>
    cases same
    rfl

/-- A count is that of the accepted samples. -/
theorem count_eq_length_accepted (store : Store ρ σ) (sound : store.Sound) (call : Call) {n : Nat}
    (counted : (store.perform call).1 = .ok (.count n)) : n = (store.accepted call).length := by
  cases call with
  | recordAll run samples => exact count_recordAll store run samples (eq_ok_of_map_count counted)
  | replay h =>
    have success := eq_ok_of_map_count counted
    rw [accepted, success, count_replay store sound h success]
    exact (List.length_map _).symm
  | replayJournal run key =>
    have success := eq_ok_of_map_count counted
    rw [accepted, success, count_replayJournal store sound run key success]
    rfl
  | importSnapshot read =>
    have success := eq_ok_of_map_count counted
    rw [accepted]
    have outcome := importSnapshot_outcome store sound read
    generalize store.importSnapshot read = result at outcome success ⊢
    cases outcome with
    | refused f runs => cases success
    | taken extended =>
      cases success
      rfl
  | register run => cases counted
  | knows run => cases counted
  | drifted => cases counted
  | _ => exact absurd counted (map_ne_count _ (by simp) n)

/-- After any calls, failed ones among them, the history of a known run is what has been accepted of
its metric. Recording makes its three tests in order and asks the journal once, if the first two are
passed; every count that a call answers is that of the samples it accepted. -/
theorem history_is_accepted_log (settings : Settings) (registration : Registration ρ) (journal : σ)
    (events : List (Event ρ)) :
    let start := empty settings registration journal
    let store := start.after events
    (∀ run key, store.knows run = true →
      ∃ h, store.history run key = .ok h ∧ h.run = run ∧ h.key = key ∧
        h.samples = samplesOf ⟨run, key⟩ (start.acceptedDuring events)) ∧
      (∀ run s f, s.check settings.allowNegative = .error f →
        f.isRefusal = true ∧ (store.record run s).1 = .error f ∧
          (store.record run s).2.journal = store.journal) ∧
      (∀ run s, s.check settings.allowNegative = .ok () → store.knows run = false →
        (store.record run s).1 = .error (.unknownRun run) ∧
          (store.record run s).2.journal = store.journal) ∧
      (∀ run s, s.check settings.allowNegative = .ok () → store.knows run = true →
        (store.record run s).1 = (Journal.append store.journal run s).1 ∧
          (store.record run s).2.journal = (Journal.append store.journal run s).2) ∧
      (∀ call n, (store.perform call).1 = .ok (.count n) →
        n = (store.accepted call).length) := by
  intro start store
  have extended : Extends start store (start.acceptedDuring events) :=
    after_extends_accepted start (empty_sound settings registration journal) events
  have sound : store.Sound := extended.sound
  have same : store.settings = settings := extended.settings
  rw [← same]
  refine ⟨?_, ?_, ?_, ?_, ?_⟩
  · intro run key known
    have here := Slots.Sound.slotAt sound ⟨run, key⟩
    refine ⟨(store.slot ⟨run, key⟩).history, ?_, here.run, here.key, ?_⟩
    · rw [history_eq, answerFor_of_known known]
    · exact extended.slots.samples ⟨run, key⟩
  · intro run s f invalid
    rw [record_of_invalid store run s invalid]
    exact ⟨check_isRefusal invalid, rfl, rfl⟩
  · intro run s valid unknown
    rw [record_of_unknown store run s valid unknown]
    exact ⟨rfl, rfl⟩
  · intro run s valid known
    exact record_of_known store sound run s valid known
  · intro call n counted
    exact count_eq_length_accepted store sound call counted

/-- A batch that is refused in the middle, over a logbook that is full after two samples. -/
theorem history_of_refused_batch :
    let start : Store RunSet Logbook := empty {} (.shared RunSet.empty) (Logbook.empty (some 2))
    let loss (step : Int64) : Sample := ⟨"loss", ⟨0⟩, 0, step⟩
    let store := start.after [.call (.register "run"), .call (.record "run" (loss (-1))),
      .call (.record "other" (loss 0)), .call (.recordAll "run" [loss 1, loss 2, loss 3])]
    ∃ h, store.history "run" "loss" = .ok h ∧ h.samples = [loss 1, loss 2] := by
  intro start loss store
  obtain ⟨h, shown, -, -, samples⟩ :=
    (history_is_accepted_log {} (.shared RunSet.empty) (Logbook.empty (some 2))
      [.call (.register "run"), .call (.record "run" (loss (-1))),
        .call (.record "other" (loss 0)), .call (.recordAll "run" [loss 1, loss 2, loss 3])]).1
      "run" "loss" (by decide)
  refine ⟨h, shown, ?_⟩
  rw [samples]
  decide

end RunMetrics.Store

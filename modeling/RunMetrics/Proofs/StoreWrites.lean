import RunMetrics.Proofs.SlotTable
import RunMetrics.Store.Replay

/-!
What the writes of a store do to its slots. Whatever the roster and the journal answer, a write makes
the slots grow by valid rows and keeps the settings; the rows are those of the samples that it
accepted.
-/

set_option autoImplicit false

namespace RunMetrics

open Snapshot (Row rowsOf samplesOf)

/-- Rows that count if an operation succeeded. -/
def rowsIfOk {α : Type} (outcome : Except Failure α) (rows : List Row) : List Row :=
  match outcome with
  | .ok _ => rows
  | .error _ => []

namespace Store

variable {ρ σ : Type}

/-- Every slot is sound at its place. -/
def Sound (store : Store ρ σ) : Prop := Slots.Sound store.slots

theorem Sound.slot {store : Store ρ σ} (sound : store.Sound) (series : Series) :
    (store.slot series).Sound series := Slots.Sound.slotAt sound series

/-- The slots have grown by valid rows. -/
structure Extends (before after : Store ρ σ) (rows : List Row) : Prop where
  settings : after.settings = before.settings
  slots : Slots.Grown before.slots after.slots rows
  valid : ∀ row ∈ rows, row.sample.check before.settings.allowNegative = .ok ()

theorem Extends.sound {before after : Store ρ σ} {rows : List Row}
    (extended : Extends before after rows) : after.Sound := extended.slots.sound

theorem Sound.extends_of_slots_eq {before after : Store ρ σ} (sound : before.Sound)
    (settings : after.settings = before.settings) (slots : after.slots = before.slots) :
    Extends before after [] := by
  refine ⟨settings, ?_, by simp⟩
  rw [slots]
  exact Slots.Sound.grown sound

theorem Extends.trans {first second third : Store ρ σ} {rows more : List Row}
    (left : Extends first second rows) (right : Extends second third more) :
    Extends first third (rows ++ more) := by
  refine ⟨right.settings.trans left.settings, left.slots.trans right.slots, ?_⟩
  intro row member
  rcases List.mem_append.1 member with earlier | later
  · exact left.valid row earlier
  · rw [← left.settings]
    exact right.valid row later

/-- Rows in another order are as good, if each metric has its samples in the same order. -/
theorem Extends.of_perm {before after : Store ρ σ} {rows more : List Row}
    (extended : Extends before after rows) (perm : rows.Perm more)
    (same : ∀ series, samplesOf series rows = samplesOf series more) :
    Extends before after more := by
  refine ⟨extended.settings, ⟨extended.sound, fun series => ?_⟩, fun row member => ?_⟩
  · rw [extended.slots.samples, same]
  · exact extended.valid row (perm.mem_iff.2 member)

theorem empty_sound (settings : Settings) (registration : Registration ρ) (journal : σ) :
    (empty settings registration journal).Sound := Slots.empty_sound

theorem dropIfEmpty_eq (store : Store ρ σ) (series : Series) :
    store.dropIfEmpty series = { store with slots := Slots.discarded store.slots series } := by
  have same : store.slot series = Slots.slotAt store.slots series := rfl
  rw [dropIfEmpty, Slots.discarded, same]
  split <;> rfl

/-- An operation that goes on with another one if it succeeds. -/
def andThen {α β : Type} (first : Except Failure α × Store ρ σ)
    (next : α → Store ρ σ → Except Failure β × Store ρ σ) : Except Failure β × Store ρ σ :=
  match first with
  | (.error f, store) => (.error f, store)
  | (.ok answer, store) => next answer store

/-- Counting does not change the store. -/
theorem andThen_counted {α β : Type} (first : Except Failure α × Store ρ σ) (count : α → β) :
    (andThen first fun answer last => (.ok (count answer), last)).2 = first.2 := by
  rcases first with ⟨f | answer, store⟩ <;> rfl

variable [Roster ρ]

/-! ### Params and tags -/

theorem setParam_extends (store : Store ρ σ) (sound : store.Sound) (run name text : String) :
    Extends store (store.setParam run name text).2 [] := by
  unfold setParam
  split <;> exact sound.extends_of_slots_eq rfl rfl

theorem setTag_extends (store : Store ρ σ) (sound : store.Sound) (run name text : String) :
    Extends store (store.setTag run name text).2 [] := by
  unfold setTag
  split <;> exact sound.extends_of_slots_eq rfl rfl

/-! ### Replaying -/

theorem forM_eq_ok_iff {α : Type} (test : α → Except Failure Unit) (items : List α) :
    items.forM test = .ok () ↔ ∀ item ∈ items, test item = .ok () := by
  induction items with
  | nil => exact ⟨fun _ _ member => (List.not_mem_nil member).elim, fun _ => rfl⟩
  | cons item rest ih =>
    rw [List.forall_mem_cons, ← ih]
    change (do test item; rest.forM test) = .ok () ↔ _
    cases tested : test item with
    | error f =>
      constructor
      · intro passed
        cases passed
      · intro both
        cases both.1
    | ok => exact ⟨fun passed => ⟨rfl, passed⟩, fun both => both.2⟩

/-- The store after its roster was asked for runs, one after the other. -/
def askedAll (store : Store ρ σ) (runs : List String) : Store ρ σ :=
  { store with registration := runs.foldl Registration.asked store.registration }

theorem askedAll_append (store : Store ρ σ) (runs more : List String) :
    store.askedAll (runs ++ more) = (store.askedAll runs).askedAll more := by
  simp only [askedAll, List.foldl_append]

theorem checkReplay_snd (store : Store ρ σ) (h : History) :
    ∃ runs, (store.checkReplay h).2 = store.askedAll runs := by
  unfold checkReplay
  split
  · exact ⟨[], rfl⟩
  · split
    · exact ⟨[], rfl⟩
    · exact ⟨[h.run], rfl⟩

theorem checkAll_cons (store : Store ρ σ) (h : History) (rest : List History) :
    store.checkAll (h :: rest) =
      andThen (store.checkReplay h) fun _ next => next.checkAll rest := by
  rw [checkAll]
  rcases store.checkReplay h with ⟨f | _, next⟩ <;> rfl

theorem replayAll_cons (store : Store ρ σ) (h : History) (rest : List History) :
    store.replayAll (h :: rest) =
      andThen (store.replay h) fun count next =>
        andThen (next.replayAll rest) fun more last => (.ok (count + more), last) := by
  rw [replayAll]
  rcases store.replay h with ⟨f | count, next⟩
  · rfl
  · simp only [andThen]
    rcases next.replayAll rest with ⟨f | more, last⟩ <;> rfl

theorem importBatches_of_histories (store : Store ρ σ) {batches : List Snapshot.Batch}
    {histories : List History} (grouped : Snapshot.histories batches = .ok histories) :
    store.importBatches batches =
      andThen (store.checkAll histories) fun _ next => next.replayAll histories := by
  simp only [importBatches, grouped]
  rcases store.checkAll histories with ⟨f | _, next⟩ <;> rfl

theorem checkAll_snd (store : Store ρ σ) (histories : List History) :
    ∃ runs, (store.checkAll histories).2 = store.askedAll runs := by
  induction histories generalizing store with
  | nil => exact ⟨[], rfl⟩
  | cons h rest ih =>
    obtain ⟨runs, asked⟩ := checkReplay_snd store h
    rw [checkAll_cons]
    rcases checked : store.checkReplay h with ⟨f | _, next⟩
    · rw [checked] at asked
      exact ⟨runs, asked⟩
    · rw [checked] at asked
      obtain ⟨more, others⟩ := ih next
      refine ⟨runs ++ more, ?_⟩
      rw [askedAll_append, ← asked]
      exact others

/-- What the replay of one history preserves, the replay of several preserves. -/
theorem replayAll_preserves (kept : Store ρ σ → Prop)
    (replays : ∀ store h, kept store → kept (store.replay h).2)
    (store : Store ρ σ) (start : kept store) (histories : List History) :
    kept (store.replayAll histories).2 := by
  induction histories generalizing store with
  | nil => exact start
  | cons h rest ih =>
    have first := replays store h start
    rw [replayAll_cons]
    rcases replayed : store.replay h with ⟨f | n, next⟩
    · rw [replayed] at first
      exact first
    · rw [replayed] at first
      rw [andThen, andThen_counted]
      exact ih next first

/-- What questions and the replay of one history preserve, an import preserves. A roster that changes its
mind can stop it between two histories. -/
theorem importSnapshot_preserves (kept : Store ρ σ → Prop)
    (asks : ∀ store runs, kept store → kept (store.askedAll runs))
    (replays : ∀ store h, kept store → kept (store.replay h).2)
    (store : Store ρ σ) (start : kept store) (read : Except Failure (List Snapshot.Batch)) :
    kept (store.importSnapshot read).2 := by
  cases read with
  | error f => exact start
  | ok batches =>
    rw [importSnapshot]
    cases grouped : Snapshot.histories batches with
    | error f =>
      simp only [importBatches, grouped]
      exact start
    | ok histories =>
      obtain ⟨runs, questions⟩ := checkAll_snd store histories
      have asked := asks store runs start
      rw [importBatches_of_histories store grouped]
      rcases checked : store.checkAll histories with ⟨f | _, next⟩
      · rw [checked] at questions
        subst questions
        exact asked
      · rw [checked] at questions
        subst questions
        exact replayAll_preserves kept replays (store.askedAll runs) asked histories

theorem checkReplay_valid (store : Store ρ σ) (h : History)
    (passed : (store.checkReplay h).1 = .ok ()) :
    ∀ s ∈ h.samples, s.check store.settings.allowNegative = .ok () := by
  rw [← forM_eq_ok_iff]
  unfold checkReplay at passed
  split at passed
  · cases passed
  · rename_i valid
    exact valid

theorem replay_of_refused (store : Store ρ σ) (h : History) {f : Failure}
    (refused : (store.checkReplay h).1 = .error f) :
    store.replay h = (.error f, (store.checkReplay h).2) := by
  have checked : store.checkReplay h = (.error f, (store.checkReplay h).2) := Prod.ext refused rfl
  rw [replay, checked]

/-- A history that passed the check goes into its slot whole, and into no other. -/
theorem replay_eq_of_admitted (store : Store ρ σ) (sound : store.Sound) (h : History)
    (passed : (store.checkReplay h).1 = .ok ()) :
    ∃ slot, store.replay h =
        (.ok h.size, { (store.checkReplay h).2 with
          registration := (store.checkReplay h).2.registration.enrol h.run,
          slots := store.slots.insert h.series slot }) ∧
      slot.Sound h.series ∧
      slot.history.samples = (store.slot h.series).history.samples ++ h.samples := by
  have checked : store.checkReplay h = (.ok (), (store.checkReplay h).2) := Prod.ext passed rfl
  obtain ⟨runs, asked⟩ := checkReplay_snd store h
  have slots : (store.checkReplay h).2.slots = store.slots := by
    rw [asked]
    rfl
  rw [replay, checked]
  generalize (store.checkReplay h).2 = next at slots
  obtain ⟨slot, added, slotSound, samples⟩ := (sound.slot h.series).addAll h.keyed
  refine ⟨slot, ?_, slotSound, samples⟩
  have opened : ({ next with registration := next.registration.enrol h.run }.openSlot
      ⟨h.run, h.key⟩).slot ⟨h.run, h.key⟩ = store.slot h.series :=
    (Slots.slotAt_insert_self next.slots h.series _).trans
      (congrArg (Slots.slotAt · h.series) slots)
  have kept : (next.slots.insert h.series (next.slot h.series)).insert h.series slot =
      store.slots.insert h.series slot := by
    rw [Table.insert_insert_self, slots]
  simp only [opened, added]
  rw [← kept]
  rfl

/-- A history that passed the check is replayed whole. -/
theorem replay_of_admitted (store : Store ρ σ) (sound : store.Sound) (h : History)
    (passed : (store.checkReplay h).1 = .ok ()) :
    ∃ slots, store.replay h =
        (.ok h.size, { (store.checkReplay h).2 with
          registration := (store.checkReplay h).2.registration.enrol h.run, slots }) ∧
      Slots.Grown store.slots slots (rowsOf [h]) := by
  obtain ⟨slot, replayed, slotSound, samples⟩ := replay_eq_of_admitted store sound h passed
  rw [← Snapshot.map_sample_rowsOf h] at samples
  -- The rows are those of one metric, so no other slot moves.
  exact ⟨_, replayed, Slots.Sound.grown_insert sound slotSound
    (fun row => Snapshot.series_of_mem_rowsOf) samples⟩

theorem Sound.replay_of_passed_eq_ok {store : Store ρ σ} (sound : store.Sound) {h : History}
    (passed : (store.checkReplay h).1 = .ok ()) : (store.replay h).1 = .ok h.size := by
  obtain ⟨slots, replayed, -⟩ := replay_of_admitted store sound h passed
  rw [replayed]

theorem replay_extends (store : Store ρ σ) (sound : store.Sound) (h : History) :
    Extends store (store.replay h).2 (rowsIfOk (store.replay h).1 (rowsOf [h])) := by
  obtain ⟨runs, asked⟩ := checkReplay_snd store h
  cases passed : (store.checkReplay h).1 with
  | error f =>
    rw [replay_of_refused store h passed, asked]
    exact sound.extends_of_slots_eq rfl rfl
  | ok =>
    obtain ⟨slots, replayed, grown⟩ := replay_of_admitted store sound h passed
    rw [replayed, asked]
    refine ⟨rfl, grown, ?_⟩
    intro row member
    apply checkReplay_valid store h passed
    rw [← Snapshot.map_sample_rowsOf h]
    exact List.mem_map_of_mem member

theorem importSnapshot_extends (store : Store ρ σ) (sound : store.Sound)
    (read : Except Failure (List Snapshot.Batch)) :
    ∃ rows, Extends store (store.importSnapshot read).2 rows := by
  apply importSnapshot_preserves (fun next => ∃ rows, Extends store next rows)
  · rintro next runs ⟨rows, first⟩
    exact ⟨rows ++ [], first.trans (first.sound.extends_of_slots_eq rfl rfl)⟩
  · rintro next h ⟨rows, first⟩
    exact ⟨_, first.trans (replay_extends next first.sound h)⟩
  · exact ⟨[], sound.extends_of_slots_eq rfl rfl⟩

/-- Replaying changes the registration and the slots, and nothing else. -/
theorem replay_rest (store : Store ρ σ) (h : History) :
    ∃ registration slots, (store.replay h).2 = { store with registration, slots } := by
  obtain ⟨runs, asked⟩ := checkReplay_snd store h
  unfold replay
  rcases checked : store.checkReplay h with ⟨f | _, next⟩
  · rw [checked] at asked
    exact ⟨_, _, asked⟩
  · rw [checked] at asked
    subst asked
    exact ⟨_, _, rfl⟩

theorem importSnapshot_rest (store : Store ρ σ) (read : Except Failure (List Snapshot.Batch)) :
    ∃ registration slots, (store.importSnapshot read).2 = { store with registration, slots } := by
  apply importSnapshot_preserves fun next =>
    ∃ registration slots, next = { store with registration, slots }
  · rintro _ runs ⟨registration, slots, rfl⟩
    exact ⟨_, _, rfl⟩
  · rintro _ h ⟨registration, slots, rfl⟩
    exact replay_rest { store with registration, slots } h
  · exact ⟨_, _, rfl⟩

variable [Journal σ]

/-! ### Recording -/

theorem record_of_invalid (store : Store ρ σ) (run : String) (s : Sample) {f : Failure}
    (invalid : s.check store.settings.allowNegative = .error f) :
    store.record run s = (.error f, store) := by
  simp only [record, invalid]

theorem record_of_unknown (store : Store ρ σ) (run : String) (s : Sample)
    (valid : s.check store.settings.allowNegative = .ok ()) (unknown : store.knows run = false) :
    store.record run s = (.error (.unknownRun run), store.asked run) := by
  simp only [record, valid, requireRun, unknown, Bool.false_eq_true, ↓reduceIte]

/-- The slot that was opened for a refused sample is dropped again if it is empty. -/
theorem record_eq_of_refused (store : Store ρ σ) (run : String) (s : Sample)
    (valid : s.check store.settings.allowNegative = .ok ()) (known : store.knows run = true)
    {f : Failure} {journal : σ}
    (refused : Journal.append store.journal run s = (.error f, journal)) :
    store.record run s = (.error f, { store.asked run with
      journal, slots := Slots.discarded store.slots ⟨run, s.key⟩ }) := by
  have asked : Journal.append ((store.asked run).openSlot ⟨run, s.key⟩).journal run s =
      (.error f, journal) := refused
  have dropped : ({ (store.asked run).openSlot ⟨run, s.key⟩ with journal }).dropIfEmpty ⟨run, s.key⟩ =
      { store.asked run with journal, slots := Slots.discarded store.slots ⟨run, s.key⟩ } := by
    rw [dropIfEmpty_eq, ← Slots.discarded_insert_slotAt store.slots]
    rfl
  simp only [record, valid, requireRun, known, ↓reduceIte, asked, dropped]

theorem record_of_refused (store : Store ρ σ) (sound : store.Sound) (run : String) (s : Sample)
    (valid : s.check store.settings.allowNegative = .ok ()) (known : store.knows run = true)
    {f : Failure} {journal : σ}
    (refused : Journal.append store.journal run s = (.error f, journal)) :
    ∃ slots, store.record run s = (.error f, { store.asked run with journal, slots }) ∧
      Slots.Grown store.slots slots [] :=
  ⟨_, record_eq_of_refused store run s valid known refused, Slots.Sound.grown_discarded sound _⟩

/-- A sample that the journal has taken goes into its slot, and into no other. -/
theorem record_eq_of_taken (store : Store ρ σ) (sound : store.Sound) (run : String) (s : Sample)
    (valid : s.check store.settings.allowNegative = .ok ()) (known : store.knows run = true)
    {journal : σ} (taken : Journal.append store.journal run s = (.ok (), journal)) :
    ∃ slot, store.record run s = (.ok (), { store.asked run with
        journal, slots := store.slots.insert ⟨run, s.key⟩ slot }) ∧
      slot.Sound ⟨run, s.key⟩ ∧
      slot.history.samples = (store.slot ⟨run, s.key⟩).history.samples ++ [s] := by
  have asked : Journal.append ((store.asked run).openSlot ⟨run, s.key⟩).journal run s =
      (.ok (), journal) := taken
  obtain ⟨slot, added, slotSound, samples⟩ := (sound.slot ⟨run, s.key⟩).add (s := s) rfl
  refine ⟨slot, ?_, slotSound, samples⟩
  have opened : { (store.asked run).openSlot ⟨run, s.key⟩ with journal }.slot ⟨run, s.key⟩ =
      store.slot ⟨run, s.key⟩ := Slots.slotAt_insert_self store.slots _ _
  have kept : (store.slots.insert ⟨run, s.key⟩ (store.slot ⟨run, s.key⟩)).insert ⟨run, s.key⟩ slot =
      store.slots.insert ⟨run, s.key⟩ slot := Table.insert_insert_self store.slots _ _ _
  rw [← kept]
  simp only [record, valid, requireRun, known, ↓reduceIte, asked, opened, added]
  rfl

theorem record_of_taken (store : Store ρ σ) (sound : store.Sound) (run : String) (s : Sample)
    (valid : s.check store.settings.allowNegative = .ok ()) (known : store.knows run = true)
    {journal : σ} (taken : Journal.append store.journal run s = (.ok (), journal)) :
    ∃ slots, store.record run s = (.ok (), { store.asked run with journal, slots }) ∧
      Slots.Grown store.slots slots [⟨run, s⟩] := by
  obtain ⟨slot, recorded, slotSound, samples⟩ := record_eq_of_taken store sound run s valid known taken
  have inside : ∀ row ∈ [(⟨run, s⟩ : Row)], row.series = ⟨run, s.key⟩ := by
    intro row member
    rw [List.mem_singleton.1 member, Row.series]
  exact ⟨_, recorded, Slots.Sound.grown_insert sound slotSound inside samples⟩

theorem Sound.record_of_taken_eq_ok {store : Store ρ σ} (sound : store.Sound) {run : String}
    {s : Sample} (valid : s.check store.settings.allowNegative = .ok ())
    (known : store.knows run = true) (taken : (Journal.append store.journal run s).1 = .ok ()) :
    (store.record run s).1 = .ok () := by
  obtain ⟨slots, recorded, -⟩ := record_of_taken store sound run s valid known
    (Prod.ext taken rfl : Journal.append store.journal run s = (.ok (), _))
  rw [recorded]

/-- What recording a sample can do. -/
inductive RecordOutcome (store : Store ρ σ) (run : String) (s : Sample) :
    Except Failure Unit × Store ρ σ → Prop where
  | invalid {f : Failure} (invalid : s.check store.settings.allowNegative = .error f) :
    RecordOutcome store run s (.error f, store)
  | unknown (valid : s.check store.settings.allowNegative = .ok ())
    (unknown : store.knows run = false) :
    RecordOutcome store run s (.error (.unknownRun run), store.asked run)
  | refused {f : Failure} {journal : σ} {slots : Slots}
    (valid : s.check store.settings.allowNegative = .ok ()) (known : store.knows run = true)
    (refused : Journal.append store.journal run s = (.error f, journal))
    (grown : Slots.Grown store.slots slots []) :
    RecordOutcome store run s (.error f, { store.asked run with journal, slots })
  | taken {journal : σ} {slots : Slots}
    (valid : s.check store.settings.allowNegative = .ok ()) (known : store.knows run = true)
    (taken : Journal.append store.journal run s = (.ok (), journal))
    (grown : Slots.Grown store.slots slots [⟨run, s⟩]) :
    RecordOutcome store run s (.ok (), { store.asked run with journal, slots })

theorem record_outcome (store : Store ρ σ) (sound : store.Sound) (run : String) (s : Sample) :
    RecordOutcome store run s (store.record run s) := by
  cases valid : s.check store.settings.allowNegative with
  | error f =>
    rw [record_of_invalid store run s valid]
    exact .invalid valid
  | ok =>
    cases known : store.knows run with
    | false =>
      rw [record_of_unknown store run s valid known]
      exact .unknown valid known
    | true =>
      rcases answer : Journal.append store.journal run s with ⟨f | _, journal⟩
      · obtain ⟨slots, recorded, grown⟩ := record_of_refused store sound run s valid known answer
        rw [recorded]
        exact .refused valid known answer grown
      · obtain ⟨slots, recorded, grown⟩ := record_of_taken store sound run s valid known answer
        rw [recorded]
        exact .taken valid known answer grown

theorem record_extends (store : Store ρ σ) (sound : store.Sound) (run : String) (s : Sample) :
    Extends store (store.record run s).2 (rowsIfOk (store.record run s).1 [⟨run, s⟩]) := by
  have outcome := record_outcome store sound run s
  generalize store.record run s = result at outcome ⊢
  cases outcome with
  | invalid _ => exact sound.extends_of_slots_eq rfl rfl
  | unknown _ _ => exact sound.extends_of_slots_eq rfl rfl
  | refused _ _ _ grown => exact ⟨rfl, grown, by simp [rowsIfOk]⟩
  | taken valid _ _ grown =>
    refine ⟨rfl, grown, ?_⟩
    intro row member
    rw [List.mem_singleton.1 member]
    exact valid

theorem recordAll_cons (store : Store ρ σ) (run : String) (s : Sample) (rest : List Sample) :
    store.recordAll run (s :: rest) =
      andThen (store.record run s) fun _ next =>
        andThen (next.recordAll run rest) fun count last => (.ok (count + 1), last) := by
  rw [recordAll]
  rcases store.record run s with ⟨f | _, next⟩
  · rfl
  · simp only [andThen]
    rcases next.recordAll run rest with ⟨f | count, last⟩ <;> rfl

theorem recordAll_cons_of_error {store next : Store ρ σ} {run : String} {s : Sample} {f : Failure}
    (refused : store.record run s = (.error f, next)) (rest : List Sample) :
    store.recordAll run (s :: rest) = (.error f, next) := by
  rw [recordAll_cons, refused, andThen]

theorem recordAll_cons_of_ok {store next : Store ρ σ} {run : String} {s : Sample}
    (recorded : store.record run s = (.ok (), next)) (rest : List Sample) :
    store.recordAll run (s :: rest) =
      ((next.recordAll run rest).1.map (· + 1), (next.recordAll run rest).2) := by
  rw [recordAll_cons, recorded, andThen]
  rcases next.recordAll run rest with ⟨f | n, last⟩ <;> rfl

/-- Recording asks for runs and changes the journal and the slots, and nothing else. -/
theorem record_rest (store : Store ρ σ) (run : String) (s : Sample) :
    ∃ runs journal slots, (store.record run s).2 = { store.askedAll runs with journal, slots } := by
  unfold record dropIfEmpty
  split
  · exact ⟨[], _, _, rfl⟩
  · split
    · exact ⟨[run], _, _, rfl⟩
    · simp only
      split
      · split <;> exact ⟨[run], _, _, rfl⟩
      · split <;> exact ⟨[run], _, _, rfl⟩

theorem recordAll_rest (store : Store ρ σ) (run : String) (samples : List Sample) :
    ∃ runs journal slots,
      (store.recordAll run samples).2 = { store.askedAll runs with journal, slots } := by
  induction samples generalizing store with
  | nil => exact ⟨[], _, _, rfl⟩
  | cons s rest ih =>
    obtain ⟨runs, journal, slots, first⟩ := record_rest store run s
    rcases recorded : store.record run s with ⟨f | _, next⟩
    · rw [recorded] at first
      rw [recordAll_cons_of_error recorded]
      exact ⟨runs, journal, slots, first⟩
    · rw [recorded] at first
      subst first
      rw [recordAll_cons_of_ok recorded]
      obtain ⟨more, last, moved, others⟩ := ih { store.askedAll runs with journal, slots }
      refine ⟨runs ++ more, last, moved, others.trans ?_⟩
      rw [askedAll_append]
      rfl

/-- What recording one sample in a sound store preserves, recording a batch preserves. -/
theorem recordAll_preserves (kept : Store ρ σ → Prop) (run : String)
    (step : ∀ store s, store.Sound → kept store → kept (store.record run s).2)
    (store : Store ρ σ) (sound : store.Sound) (start : kept store) (samples : List Sample) :
    kept (store.recordAll run samples).2 := by
  induction samples generalizing store with
  | nil => exact start
  | cons s rest ih =>
    have extended := record_extends store sound run s
    have next := step store s sound start
    rcases recorded : store.record run s with ⟨f | _, middle⟩
    · rw [recorded] at next
      rw [recordAll_cons_of_error recorded]
      exact next
    · rw [recorded] at extended next
      rw [recordAll_cons_of_ok recorded]
      exact ih middle extended.sound next

/-- The samples before the first one that is refused, each with the run. -/
def recordedRows (store : Store ρ σ) (run : String) : List Sample → List Row
  | [] => []
  | s :: rest =>
    match store.record run s with
    | (.error _, _) => []
    | (.ok (), next) => ⟨run, s⟩ :: next.recordedRows run rest

theorem recordAll_extends (store : Store ρ σ) (sound : store.Sound) (run : String)
    (samples : List Sample) :
    Extends store (store.recordAll run samples).2 (store.recordedRows run samples) := by
  induction samples generalizing store with
  | nil => exact sound.extends_of_slots_eq rfl rfl
  | cons s rest ih =>
    have first := record_extends store sound run s
    rw [recordedRows]
    rcases recorded : store.record run s with ⟨f | _, next⟩
    · rw [recorded] at first
      rw [recordAll_cons_of_error recorded]
      exact first
    · rw [recorded] at first
      rw [recordAll_cons_of_ok recorded]
      exact first.trans (ih next first.sound)

theorem recordAll_eq_ok (store : Store ρ σ) (run : String) (samples : List Sample) {n : Nat}
    (success : (store.recordAll run samples).1 = .ok n) :
    n = samples.length ∧ store.recordedRows run samples = samples.map fun s => ⟨run, s⟩ := by
  induction samples generalizing store n with
  | nil =>
    cases success
    exact ⟨rfl, rfl⟩
  | cons s rest ih =>
    rw [recordedRows]
    rcases recorded : store.record run s with ⟨f | _, next⟩
    · rw [recordAll_cons_of_error recorded] at success
      cases success
    · rw [recordAll_cons_of_ok recorded] at success
      cases counted : (next.recordAll run rest).1 with
      | error f =>
        rw [counted] at success
        cases success
      | ok m =>
        rw [counted] at success
        cases success
        obtain ⟨length, rows⟩ := ih next counted
        subst length
        exact ⟨rfl, congrArg _ rows⟩

theorem isPrefix_recordedRows (store : Store ρ σ) (run : String) (samples : List Sample) :
    store.recordedRows run samples <+: samples.map fun s => ⟨run, s⟩ := by
  induction samples generalizing store with
  | nil => exact List.prefix_rfl
  | cons s rest ih =>
    rw [recordedRows]
    rcases store.record run s with ⟨f | _, next⟩
    · exact List.nil_prefix
    · rw [List.map_cons]
      exact List.cons_prefix_cons.2 ⟨rfl, ih next⟩

/-! ### Replaying what the journal holds -/

/-- What loading and the replay of a history preserve, a replay of what is loaded preserves. -/
theorem replayJournal_preserves (kept : Store ρ σ → Prop)
    (loads : ∀ (store : Store ρ σ) journal, kept store → kept { store with journal })
    (replays : ∀ store h, kept store → kept (store.replay h).2)
    (store : Store ρ σ) (start : kept store) (run key : String) :
    kept (store.replayJournal run key).2 := by
  unfold replayJournal
  rcases Journal.load store.journal run key with ⟨f | samples, journal⟩
  · exact loads store journal start
  · simp only
    cases History.ofSamples run key samples with
    | error f => exact loads store journal start
    | ok h => exact replays { store with journal } h (loads store journal start)

/-- The rows of what the journal holds of a metric, if that can be read. -/
def loadedRows (store : Store ρ σ) (run key : String) : List Row :=
  match (Journal.load store.journal run key).1 with
  | .ok samples => samples.map fun s => ⟨run, s⟩
  | .error _ => []

theorem replayJournal_extends (store : Store ρ σ) (sound : store.Sound) (run key : String) :
    Extends store (store.replayJournal run key).2
      (rowsIfOk (store.replayJournal run key).1 (store.loadedRows run key)) := by
  have loaded (journal : σ) : Extends store { store with journal } [] :=
    sound.extends_of_slots_eq rfl rfl
  unfold replayJournal loadedRows
  rcases answer : Journal.load store.journal run key with ⟨f | samples, journal⟩
  · exact loaded journal
  · simp only
    cases built : History.ofSamples run key samples with
    | error f => exact loaded journal
    | ok h =>
      obtain ⟨sameRun, sameKey, sameSamples⟩ := History.ofSamples_eq_ok built
      have replayed := replay_extends { store with journal } sound h
      rw [Snapshot.rowsOf_singleton, sameRun, sameSamples] at replayed
      exact (loaded journal).trans replayed

end Store

end RunMetrics

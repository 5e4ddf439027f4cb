import RunMetrics.Proofs.SequentialReplay
import RunMetrics.Proofs.ValidSamples
import RunMetrics.Store.Export

/-!
A run that is exported and imported into a fresh store. The histories that a store shows of a run are
those of its metrics with samples, each once; grouping their rows gives each metric its samples back, so
the fresh store shows the same of the run. It applies its own rules to the samples before it takes any.
-/

set_option autoImplicit false

namespace RunMetrics

namespace Store

open Snapshot (Holds rowsOf samplesOf totals)

variable {ρ σ : Type}

/-! ### The histories of a run -/

/-- No metric is shown twice. -/
theorem Sound.nodup_shown {store : Store ρ σ} (sound : store.Sound) (run : String) :
    ((store.shown run).map fun slot => slot.history.series).Nodup := by
  rw [List.Nodup, List.pairwise_map]
  refine (sound.increasing_shown run).imp ?_
  intro a b order same
  exact Table.ne_of_compare_lt order (congrArg Series.key same)

/-- The histories that are shown of a run hold the samples of each of its metrics. -/
theorem Sound.samplesOf_shown {store : Store ρ σ} (sound : store.Sound) (run key : String) :
    samplesOf ⟨run, key⟩ (rowsOf ((store.shown run).map Slot.history)) =
      (store.slot ⟨run, key⟩).history.samples := by
  have here := sound.slot ⟨run, key⟩
  have series : (store.slot ⟨run, key⟩).history.series = ⟨run, key⟩ := by
    rw [History.series]
    exact congr (congrArg Series.mk here.run) here.key
  have distinct : (((store.shown run).map Slot.history).map History.series).Nodup := by
    rw [List.map_map]
    exact sound.nodup_shown run
  cases nothing : (store.slot ⟨run, key⟩).history.isEmpty with
  | false =>
    have listed := (mem_shown_iff store run _).2 ⟨key, rfl, nothing⟩
    rw [← Snapshot.samplesOf_rowsOf_of_mem distinct (List.mem_map_of_mem listed), series]
  | true =>
    rw [List.isEmpty_iff.1 nothing]
    apply Snapshot.samplesOf_rowsOf_of_notMem
    intro member
    obtain ⟨h, shown, same⟩ := List.mem_map.1 member
    obtain ⟨slot, listed, rfl⟩ := List.mem_map.1 shown
    obtain ⟨other, found, some_held⟩ := (mem_shown_iff store run slot).1 listed
    have there := sound.slot ⟨run, other⟩
    have key_eq : other = key := by
      have keys : slot.history.key = key := congrArg Series.key same
      rw [← keys, ← found]
      exact there.key.symm
    subst key_eq
    rw [← found, nothing] at some_held
    cases some_held

/-! ### Importing into a fresh store -/

variable {τ : Type}

/-- What a fresh store that registers runs itself becomes by taking in the histories of a run. -/
structure Reproduced (store : Store ρ σ) (run : String) (fresh : Store RunSet τ) : Prop where
  sound : fresh.Sound
  slot : ∀ key, fresh.slot ⟨run, key⟩ = store.slot ⟨run, key⟩
  knows : ∀ other, fresh.knows other = true ↔ other = run ∧ (store.shown run).map Slot.history ≠ []

theorem Sound.reproduced {store : Store ρ σ} (sound : store.Sound) (run : String)
    (settings : Settings) (journal : τ) {next : Store RunSet τ}
    (replayed : Replayed (empty settings (.own RunSet.empty) journal) next
      (Snapshot.group (rowsOf ((store.shown run).map Slot.history)))) :
    Reproduced store run next := by
  refine ⟨replayed.sound, fun key => ?_, fun other => ?_⟩
  · apply (Slots.Sound.slotAt replayed.sound ⟨run, key⟩).eq_of_samples_eq
      (Slots.Sound.slotAt sound ⟨run, key⟩)
    rw [replayed.slots.samples, Snapshot.samplesOf_group, sound.samplesOf_shown]
    exact List.nil_append _
  · have members := mem_runs_group_rowsOf ((store.shown run).map Slot.history)
      (fun h member => (sound.of_mem_shown member).2.1) other
    have enrolled := replayed.registration.contains other
    refine enrolled.trans ?_
    rw [members]
    constructor
    · rintro (impossible | ⟨-, listed⟩)
      · cases impossible
      · obtain ⟨h, member, rfl⟩ := List.mem_map.1 listed
        exact ⟨(sound.of_mem_shown member).1, List.ne_nil_of_mem member⟩
    · rintro ⟨rfl, some_shown⟩
      obtain ⟨h, member⟩ := List.exists_mem_of_ne_nil _ some_shown
      exact Or.inr ⟨rfl, List.mem_map.2 ⟨h, member, (sound.of_mem_shown member).1⟩⟩

/-- The samples of a run that are valid where they are may be refused elsewhere as negative only. -/
theorem valid_iff_of_valid {settings fresh : Settings} {histories : List History}
    (valid : ∀ h ∈ histories, ∀ s ∈ h.samples, s.check settings.allowNegative = .ok ()) :
    (∀ h ∈ histories, ∀ s ∈ h.samples, s.check fresh.allowNegative = .ok ()) ↔
      (fresh.allowNegative = true ∨
        ∀ h ∈ histories, ∀ s ∈ h.samples, 0 ≤ s.timestamp ∧ 0 ≤ s.step) := by
  simp only [Sample.check_eq_ok_iff] at valid ⊢
  cases fresh.allowNegative with
  | true => simpa using fun h member s inside => (valid h member s inside).1
  | false =>
    constructor
    · exact fun passed => Or.inr fun h member s inside => by simpa using (passed h member s inside).2
    · rintro (impossible | natural) h member s inside
      · cases impossible
      · exact ⟨(valid h member s inside).1, Or.inr (natural h member s inside)⟩

theorem sum_sizes_eq_zero_iff {histories : List History}
    (nonempty : ∀ h ∈ histories, h.samples ≠ []) :
    (histories.map History.size).sum = 0 ↔ histories = [] := by
  constructor
  · intro nothing
    cases histories with
    | nil => rfl
    | cons h rest =>
      rw [List.map_cons, List.sum_cons] at nothing
      have some_held := List.length_pos_iff.2 (nonempty h List.mem_cons_self)
      rw [History.size] at nothing
      omega
  · rintro rfl
    rfl

variable [Roster ρ]

theorem histories_of_known {store : Store ρ σ} {run : String} (known : store.knows run = true) :
    store.histories run = .ok ((store.shown run).map Slot.history) := by
  rw [histories_eq, answerFor_of_known known]

/-- The rule by which an own store objects to samples is about the samples alone. -/
theorem isRefusal_of_objection {store : Store ρ σ} (own : store.registration.isOwn = true)
    {series : Series} {samples : List Sample} {f : Failure}
    (objected : store.objection series samples = some f) : f.isRefusal = true := by
  rw [objection, Registration.admits, own, Bool.true_or, if_pos rfl, Option.or_none] at objected
  obtain ⟨s, -, fault⟩ := List.exists_of_findSome?_eq_some objected
  cases checked : s.check store.settings.allowNegative with
  | ok =>
    rw [checked] at fault
    cases fault
  | error g =>
    rw [checked] at fault
    cases fault
    exact check_isRefusal checked

variable [Journal σ]

/-- Exporting a run of any store writes a file with all its samples. A fresh store that registers runs
itself and imports the file, in whatever batches it is read, then knows that run alone and shows of it
what the first store shows, if the run has samples and the fresh store allows negative numbers or meets
none. If it meets one that it does not allow, it refuses the file for a value and stays empty. A run
without samples leaves nothing in the file, so the fresh store does not know it. -/
theorem import_reproduces_exported_run (settings fresh : Settings) (registration : Registration ρ)
    (journal : σ) (other : τ) (events : List (Event ρ)) (run : String)
    (known : ((empty settings registration journal).after events).knows run = true) (shelf : Shelf)
    (file : String) (reaches : shelf.reaches file = true) :
    let store := (empty settings registration journal).after events
    let start : Store RunSet τ := empty fresh (.own RunSet.empty) other
    ∃ histories last, store.histories run = .ok histories ∧
      let total := (histories.map History.size).sum
      store.exportRun run shelf file = .ok (total, last) ∧
      (∃ batches, last.readBatches file = .ok batches ∧ last.Gives file batches) ∧
      ∀ batches, last.Gives file batches →
        let result := start.importSnapshot (.ok batches)
        let permitted := fresh.allowNegative = true ∨
          ∀ h ∈ histories, ∀ s ∈ h.samples, 0 ≤ s.timestamp ∧ 0 ≤ s.step
        (total ≠ 0 → permitted →
          result.1 = .ok total ∧ (∀ other, result.2.knows other = true ↔ other = run) ∧
            (∀ key, result.2.snapshot run key = store.snapshot run key) ∧
            result.2.keys run = store.keys run ∧ result.2.histories run = store.histories run ∧
            result.2.rows run = store.rows run ∧
            ∃ first second, result.2.overview run = .ok first ∧ store.overview run = .ok second ∧
              ∀ projection, first.samples projection = second.samples projection) ∧
        (¬ permitted → ∃ f, f.isRefusal = true ∧ result = (.error f, start)) ∧
        (total = 0 → result.1 = .ok 0 ∧ result.2.knows run = false) := by
  intro store start
  have sound : store.Sound := after_sound settings registration journal events
  let histories := (store.shown run).map Slot.history
  have nonempty : ∀ h ∈ histories, h.samples ≠ [] :=
    fun h member => (sound.of_mem_shown member).2.1
  have valid : ∀ h ∈ histories, ∀ s ∈ h.samples, s.check settings.allowNegative = .ok () := by
    intro h member s inside
    obtain ⟨-, -, key, rfl⟩ := sound.of_mem_shown member
    exact valid_of_slot settings registration journal events ⟨run, key⟩ s inside
  obtain ⟨last, written, read, gives⟩ := shelf.writeSnapshot_of_reaches reaches histories
  refine ⟨histories, last, histories_of_known known, ?_, ⟨_, read,
    (gives _).2 (Snapshot.holds_ofHistories histories)⟩, fun batches given => ?_⟩
  · rw [exportRun, histories_of_known known]
    exact written
  · have holds : Holds batches (rowsOf histories) := (gives batches).1 given
    have grouped := findSome?_group_rowsOf start histories nonempty
    have admitted := no_objection_iff start histories
    rw [and_iff_left (fun shared => by cases shared), valid_iff_of_valid valid] at admitted
    intro result permitted
    change _ ↔ permitted at admitted
    rw [← admitted]
    cases objected : (totals histories).findSome? fun total => start.objection total.1 total.2 with
    | some f =>
      rw [objected] at grouped
      obtain ⟨runs, refused⟩ := importSnapshot_of_objection start holds grouped
      have unasked : start.askedAll runs = start := by
        simp only [askedAll, start, empty, Registration.foldl_asked_own]
      rw [unasked] at refused
      obtain ⟨total, -, cause⟩ := List.exists_of_findSome?_eq_some objected
      refine ⟨fun _ impossible => (by cases impossible),
        fun _ => ⟨f, isRefusal_of_objection rfl cause, refused⟩, fun nothing => ?_⟩
      rw [(sum_sizes_eq_zero_iff nonempty).1 nothing] at objected
      cases objected
    | none =>
      rw [objected] at grouped
      obtain ⟨next, taken, replayed⟩ :=
        importSnapshot_of_no_objection start (empty_sound fresh _ other) holds grouped
      have imported : result = (.ok (histories.map History.size).sum, next) := by
        rw [← Snapshot.length_rowsOf_eq_sum]
        exact taken
      have reproduced : Reproduced store run next := sound.reproduced run fresh other replayed
      rw [imported]
      refine ⟨fun some_held _ => ?_, fun refused => absurd rfl refused, fun nothing => ?_⟩
      · have shown : histories ≠ [] := fun none_shown =>
          some_held ((sum_sizes_eq_zero_iff nonempty).2 none_shown)
        have alone : ∀ other, next.knows other = true ↔ other = run := fun other =>
          (reproduced.knows other).trans (and_iff_left shown)
        exact ⟨rfl, alone,
          views_eq_of_run_eq reproduced.sound sound reproduced.slot ((alone run).2 rfl) known⟩
      · refine ⟨congrArg Except.ok nothing, Bool.eq_false_iff.2 fun there => ?_⟩
        exact ((reproduced.knows run).1 there).2 ((sum_sizes_eq_zero_iff nonempty).1 nothing)

/-- NaN with a payload, minus zero and negative times pass through the file. -/
theorem exported_run_of_negative_times :
    let settings : Settings := { allowNegative := true }
    let store : Store RunSet Silent := (empty settings (.own RunSet.empty) .mk).after
      [.call (.register "train"),
        .call (.record "train" ⟨"loss", ⟨0x7ff8000000000001⟩, -5, 1⟩),
        .call (.record "train" ⟨"accuracy", ⟨0x8000000000000000⟩, 0, -2⟩)]
    let start : Store RunSet Silent := empty settings (.own RunSet.empty) .mk
    ∃ last batches, store.exportRun "train" Shelf.empty "metrics" = .ok (2, last) ∧
      last.Gives "metrics" batches ∧ (start.importSnapshot (.ok batches)).1 = .ok 2 ∧
      (start.importSnapshot (.ok batches)).2.histories "train" = store.histories "train" := by
  intro settings store start
  obtain ⟨histories, last, shown, exported, ⟨batches, -, given⟩, imported⟩ :=
    import_reproduces_exported_run settings settings (.own RunSet.empty : Registration RunSet)
      Silent.mk Silent.mk
      [.call (.register "train"),
        .call (.record "train" ⟨"loss", ⟨0x7ff8000000000001⟩, -5, 1⟩),
        .call (.record "train" ⟨"accuracy", ⟨0x8000000000000000⟩, 0, -2⟩)]
      "train" (by decide) Shelf.empty "metrics" (by decide)
  have listed : store.histories "train" = .ok
      [⟨"train", "accuracy", [⟨"accuracy", ⟨0x8000000000000000⟩, 0, -2⟩], by decide⟩,
        ⟨"train", "loss", [⟨"loss", ⟨0x7ff8000000000001⟩, -5, 1⟩], by decide⟩] := by
    decide
  obtain rfl := Except.ok.inj (shown.symm.trans listed)
  obtain ⟨count, -, -, -, same, -⟩ := (imported batches given).1 (by decide) (Or.inl rfl)
  exact ⟨last, batches, exported, given, count, same⟩

end Store

end RunMetrics

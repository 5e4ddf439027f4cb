import Mathlib.Data.Finset.Card
import RunMetrics.Proofs.FailedCalls
import RunMetrics.Proofs.ReplayAgreement

/-!
Notes keep to themselves. The params and the tags of a store are what the notes that were set successfully
make on their own, the last one under a name staying; no other call adds to them, and setting a note moves
nothing else that a store shows.
-/

set_option autoImplicit false

namespace RunMetrics

namespace Notes

/-- The text of the last note under a name of a run. -/
def lastText (written : List Note) (run name : String) : Option String :=
  ((written.filter fun n => n.run = run ∧ n.name = name).getLast?).map Note.text

theorem setAll_concat (notes : Notes) (earlier : List Note) (n : Note) :
    notes.setAll (earlier ++ [n]) = (notes.setAll earlier).set n.run n.name n.text := by
  rw [setAll, List.foldl_append, List.foldl_cons, List.foldl_nil, setAll]

theorem setAll_append (notes : Notes) (earlier later : List Note) :
    notes.setAll (earlier ++ later) = (notes.setAll earlier).setAll later := by
  rw [setAll, List.foldl_append, setAll, setAll]

/-- A note is seen under its name of its run, and nothing else changes. -/
theorem get?_set (notes : Notes) (owner title text run name : String) :
    (notes.set owner title text).get? run name =
      if owner = run ∧ title = name then some text else notes.get? run name := by
  by_cases same : owner = run
  · subst same
    rw [get?, entries_set_self, get?]
    by_cases here : title = name
    · subst here
      rw [Table.get?_insert_self, if_pos ⟨rfl, rfl⟩]
    · rw [Table.get?_insert_of_ne _ _ (Ne.symm here), if_neg fun both => here both.2]
  · rw [get?, entries_set_of_ne _ _ _ (Ne.symm same), get?, if_neg fun both => same both.1]

/-- Of the notes that are set the last one under a name stays. -/
theorem get?_setAll (notes : Notes) (written : List Note) (run name : String) :
    (notes.setAll written).get? run name = (lastText written run name).or (notes.get? run name) := by
  induction written using List.reverseRecOn with
  | nil => rfl
  | append_singleton earlier n ih =>
    rw [setAll_concat, get?_set, lastText, List.filter_append, List.getLast?_append,
      List.filter_singleton]
    by_cases here : n.run = run ∧ n.name = name
    · rw [if_pos here, decide_eq_true here]
      rfl
    · rw [if_neg here, decide_eq_false here]
      exact ih

/-- Notes of other runs leave those of a run alone. -/
theorem entries_setAll_of_ne (notes : Notes) {written : List Note} {run : String}
    (apart : ∀ n ∈ written, n.run ≠ run) :
    (notes.setAll written).entries run = notes.entries run := by
  have nothing : ofRun written run = [] := by
    rw [ofRun, List.map_eq_nil_iff, List.filter_eq_nil_iff]
    exact fun n member here => apart n member (of_decide_eq_true here)
  rw [entries_setAll, nothing]
  rfl

theorem mem_runs_keys_setAll (written : List Note) (run : String) :
    run ∈ (empty.setAll written).runs.keys ↔ ∃ n ∈ written, n.run = run := by
  rw [Table.mem_keys_iff]
  induction written using List.reverseRecOn with
  | nil =>
    constructor
    · exact fun found => absurd rfl found
    · rintro ⟨n, member, -⟩
      cases member
  | append_singleton earlier n ih =>
    rw [setAll_concat, set]
    by_cases here : run = n.run
    · subst here
      rw [Table.get?_insert_self]
      exact iff_of_true (Option.some_ne_none _) ⟨n, List.mem_append_right _ List.mem_cons_self, rfl⟩
    · have other : n.run ≠ run := Ne.symm here
      rw [Table.get?_insert_of_ne _ _ here, ih]
      simp [or_and_right, exists_or, other]

/-- There are notes of as many runs as have been written for. -/
theorem size_setAll (written : List Note) :
    (empty.setAll written).size = (written.map Note.run).toFinset.card := by
  have runs : (empty.setAll written).runs.keys.toFinset = (written.map Note.run).toFinset := by
    ext run
    rw [List.mem_toFinset, List.mem_toFinset, mem_runs_keys_setAll, List.mem_map]
  rw [← runs, List.toFinset_card_of_nodup (Table.nodup_keys _), size, Table.size, Table.keys,
    List.length_map]

end Notes

/-- The notes that an overview shows. -/
def Overview.notes (o : Overview) : Store.Notebook → Table String String
  | .params => o.params
  | .tags => o.tags

namespace Store

variable {ρ σ : Type}

/-! ### What is shown -/

theorem notes_overview (store : Store ρ σ) (run : String) (book : Notebook) :
    (store.views run).overview.notes book = (store.notes book).entries run := by
  obtain ⟨params, tags⟩ := store.notes_views run
  cases book with
  | params => exact params
  | tags => exact tags

theorem samples_overview (store : Store ρ σ) (run : String) (p : Projection) :
    (store.views run).overview.samples p = (Overview.ofSlots (store.shown run)).samples p := by
  rw [views, Overview.samples_putTags, Overview.samples_putParams]

variable [Roster ρ]

theorem Sound.overview_eq_ok {store : Store ρ σ} (sound : store.Sound) {run : String}
    {o : Overview} :
    store.overview run = .ok o ↔ store.knows run = true ∧ o = (store.views run).overview := by
  rw [sound.overview_eq, answerFor]
  split
  · rename_i known
    rw [Except.ok.injEq, and_iff_right known, eq_comm]
    rfl
  · rename_i unknown
    constructor
    · intro refused
      cases refused
    · exact fun both => absurd both.1 unknown

/-! ### What is set -/

variable [Journal σ]

/-- The notes that are set in a book by the calls among events that are answered without a failure, in
order. -/
def notesSet (store : Store ρ σ) (book : Notebook) : List (Event ρ) → List Note
  | [] => []
  | .call call :: rest =>
    noteSet book call (store.perform call).1 ++ (store.perform call).2.notesSet book rest
  | .moved roster :: rest => (store.step (.moved roster)).notesSet book rest

theorem notes_after (store : Store ρ σ) (book : Notebook) (events : List (Event ρ)) :
    (store.after events).notes book = (store.notes book).setAll (store.notesSet book events) := by
  induction events generalizing store with
  | nil => rfl
  | cons event rest ih =>
    cases event with
    | call call =>
      rw [notesSet, Notes.setAll_append, ← notes_perform]
      exact ih (store.perform call).2
    | moved roster =>
      rw [notesSet]
      refine (ih (store.step (.moved roster))).trans ?_
      cases book <;> rfl

/-! ### What is not set -/

/-- Whether a call asks for runs or metrics, and not for notes. -/
def Call.isMetricRead : Call → Bool
  | .overview _ => false
  | call => call.isRead

/-- Whether a call sets a note. -/
def Call.setsNote : Call → Bool
  | .setParam _ _ _ => true
  | .setTag _ _ _ => true
  | _ => false

/-- Setting a note may ask the roster, and changes nothing but the notes. -/
theorem setsNote_rest (store : Store ρ σ) {call : Call} (sets : call.setsNote = true) :
    ∃ runs params tags,
      (store.perform call).2 = { store.askedAll runs with params := params, tags := tags } := by
  cases call with
  | setParam run name text =>
    simp only [perform, setParam]
    split <;> exact ⟨[run], _, _, rfl⟩
  | setTag run name text =>
    simp only [perform, setTag]
    split <;> exact ⟨[run], _, _, rfl⟩
  | _ => cases sets

/-- Questions about metrics do not look at notes. -/
theorem metricRead_of_notes (store : Store ρ σ) (params tags : Notes) {read : Call}
    (reads : read.isMetricRead = true) :
    ((({ store with params, tags }) : Store ρ σ).perform read).1 = (store.perform read).1 := by
  cases read with
  | knows | summary | history | snapshot | keys | histories | rows | drifted => rfl
  | _ => cases reads

theorem Call.isRead_of_isMetricRead {read : Call} (reads : read.isMetricRead = true) :
    read.isRead = true := by
  cases read with
  | overview run => cases reads
  | _ => exact reads

/-- Setting a note answers no question about metrics differently, unless the roster does. -/
theorem metricRead_perform (store : Store ρ σ) {call read : Call} (sets : call.setsNote = true)
    (reads : read.isMetricRead = true) :
    ((store.perform call).2.perform read).1 =
      ((store.consulting (store.perform call).2.registration).perform read).1 := by
  obtain ⟨runs, params, tags, after⟩ := setsNote_rest store sets
  rw [after]
  exact metricRead_of_notes (store.askedAll runs) params tags reads

theorem Sound.metricRead_perform [Roster.Steady ρ] {store : Store ρ σ} (sound : store.Sound)
    {call read : Call} (sets : call.setsNote = true) (reads : read.isMetricRead = true) :
    ((store.perform call).2.perform read).1 = (store.perform read).1 := by
  obtain ⟨runs, params, tags, after⟩ := setsNote_rest store sets
  rw [after, metricRead_of_notes (store.askedAll runs) params tags reads]
  have looks := (sound.idle_askedAll runs).looks sound
  exact (looks.read (Call.isRead_of_isMetricRead reads)).symm

/-- Params and tags are what the calls that set them and are answered without a failure make on their own:
under each name of a run its last text, and no other name. What sets no note of a run in one of the two
leaves those of the run there alone, and setting notes leaves alone what is shown of metrics. Notes on
their own hold the last text under each name, by name, and count the runs that were written for. -/
theorem notes_keep_to_themselves (settings : Settings) (registration : Registration ρ) (journal : σ)
    (events : List (Event ρ)) :
    let start : Store ρ σ := empty settings registration journal
    let store := start.after events
    (∀ run, store.knows run = true → ∃ o, store.overview run = .ok o ∧ ∀ book name,
        (o.notes book).get? name = Notes.lastText (start.notesSet book events) run name) ∧
      (∀ call, let after := (store.perform call).2
        (∀ book run, (∀ n ∈ noteSet book call (store.perform call).1, n.run ≠ run) →
          ∀ o o', store.overview run = .ok o → after.overview run = .ok o' →
            o'.notes book = o.notes book) ∧
        (call.setsNote = true →
          (∀ read : Call, read.isMetricRead = true →
            (after.perform read).1 = ((store.consulting after.registration).perform read).1 ∧
              (Roster.Steady ρ → (after.perform read).1 = (store.perform read).1)) ∧
          ∀ run o o', store.overview run = .ok o → after.overview run = .ok o' →
            ∀ p, o'.samples p = o.samples p)) ∧
      ∀ written : List Note, let notes := Notes.empty.setAll written
        (∀ run name, notes.get? run name = Notes.lastText written run name) ∧
          (∀ run, (notes.entries run).keys.Pairwise (fun a b => Text.bytes a < Text.bytes b) ∧
            ∀ name text, (name, text) ∈ (notes.entries run).entries ↔
              Notes.lastText written run name = some text) ∧
          notes.size = (written.map Note.run).toFinset.card := by
  intro start store
  have sound : store.Sound := after_sound settings registration journal events
  have alone (written : List Note) (run name : String) :
      (Notes.empty.setAll written).get? run name = Notes.lastText written run name :=
    (Notes.get?_setAll Notes.empty written run name).trans Option.or_none
  refine ⟨fun run known => ?_, fun call => ?_, fun written => ?_⟩
  · refine ⟨_, sound.overview_eq_ok.2 ⟨known, rfl⟩, fun book name => ?_⟩
    rw [notes_overview, notes_after start book events]
    have nothing : start.notes book = Notes.empty := by cases book <;> rfl
    rw [nothing]
    exact alone (start.notesSet book events) run name
  · have kept : (store.perform call).2.Sound := by
      obtain ⟨rows, extended⟩ := perform_extends store sound call
      exact extended.sound
    refine ⟨fun book run apart o o' shown shown' => ?_, fun sets => ⟨fun read reads => ?_, ?_⟩⟩
    · obtain ⟨-, rfl⟩ := sound.overview_eq_ok.1 shown
      obtain ⟨-, rfl⟩ := kept.overview_eq_ok.1 shown'
      rw [notes_overview, notes_overview, notes_perform]
      exact Notes.entries_setAll_of_ne _ apart
    · exact ⟨metricRead_perform store sets reads, fun _ => sound.metricRead_perform sets reads⟩
    · intro run o o' shown shown' p
      obtain ⟨-, rfl⟩ := sound.overview_eq_ok.1 shown
      obtain ⟨-, rfl⟩ := kept.overview_eq_ok.1 shown'
      obtain ⟨runs, params, tags, after⟩ := setsNote_rest store sets
      rw [samples_overview, samples_overview, after]
      rfl
  · refine ⟨alone written, fun run => ⟨?_, fun name text => ?_⟩, Notes.size_setAll written⟩
    · exact List.pairwise_map.2 (((Notes.empty.setAll written).entries run).increasing.imp
        fun order => (Text.compare_eq_lt_iff _ _).1 order)
    · rw [Table.mem_entries_iff, ← alone]
      rfl

/-- A param that is refused, as its run is not known yet, is not there when the run is; one that is written
twice is there as it was written last, and neither a tag of its name nor a param of another run meets it. -/
theorem overview_after_refused_param :
    let start : Store RunSet Logbook := empty {} (.own RunSet.empty) (Logbook.empty none)
    let store := start.after
      [.call (.setParam "run" "seed" "1"), .call (.register "run"), .call (.register "other"),
        .call (.setParam "run" "rate" "0.1"), .call (.setTag "run" "rate" "slow"),
        .call (.setParam "other" "rate" "0.2"), .call (.setParam "run" "rate" "0.3")]
    (∃ o, store.overview "run" = .ok o ∧ o.params.get? "seed" = none ∧
        o.params.get? "rate" = some "0.3" ∧ o.tags.get? "rate" = some "slow") ∧
      ((store.perform (.setTag "run" "rate" "fast")).2.perform (.keys "run")).1 =
        (store.perform (.keys "run")).1 := by
  intro start store
  obtain ⟨shown, kept, -⟩ := notes_keep_to_themselves (ρ := RunSet) {} (.own RunSet.empty)
    (Logbook.empty none)
    [.call (.setParam "run" "seed" "1"), .call (.register "run"), .call (.register "other"),
      .call (.setParam "run" "rate" "0.1"), .call (.setTag "run" "rate" "slow"),
      .call (.setParam "other" "rate" "0.2"), .call (.setParam "run" "rate" "0.3")]
  obtain ⟨o, overview, notes⟩ := shown "run" (by decide)
  obtain ⟨reads, -⟩ := (kept (.setTag "run" "rate" "fast")).2 rfl
  exact ⟨⟨o, overview, (notes .params "seed").trans (by decide),
    (notes .params "rate").trans (by decide), (notes .tags "rate").trans (by decide)⟩,
    (reads (.keys "run") rfl).2 inferInstance⟩

end Store

end RunMetrics

import RunMetrics.Proofs.AppendLog
import RunMetrics.Proofs.KeyOrder
import RunMetrics.Proofs.RunNotes
import RunMetrics.Proofs.SummaryDrift
import RunMetrics.Proofs.UnorderedSlots

/-!
All that a store shows of a run agrees. Keys, histories, overview and rows are each gathered from the
slots of the run in a way of their own, and some slots have no samples; still they show the same metrics,
and of each metric what its own history and summary say.
-/

set_option autoImplicit false

namespace RunMetrics

open Record (ProjectionRow Quantity)
open Snapshot (samplesOf)

/-- What is shown of a run: of each key its history and summary, and of all keys the rest. -/
structure Views where
  history : String → History
  summary : String → Option Summary
  keys : List String
  histories : List History
  overview : Overview
  rows : List ProjectionRow

/-- The views of a run show the same metrics and the same samples. -/
structure Views.Agree (views : Views) (run : String) : Prop where
  /-- The keys are in strict order of their bytes. -/
  increasing : views.keys.Pairwise fun a b => Text.bytes a < Text.bytes b
  /-- They are those that have samples. -/
  mem_keys : ∀ key, key ∈ views.keys ↔ (views.history key).samples ≠ []
  /-- The histories are those of the keys, in the same order. -/
  histories : views.histories = views.keys.map views.history
  /-- In a projection each key has the sample that its summary shows there, and no other. -/
  samples : ∀ p key, (views.overview.samples p).get? key =
    (views.summary key).bind fun summary => summary.get? p
  latest : views.overview.latest.keys = views.keys
  /-- An extreme is shown of the keys that have a value other than NaN. -/
  extremes : ∀ p, p ≠ .latest → ∀ key, key ∈ (views.overview.samples p).keys ↔
    ∃ s ∈ (views.history key).samples, s.value.isNaN = false
  /-- The rows are in strict order, by the bytes of the key and then by projection. -/
  ascending : views.rows.Pairwise fun a b => Text.bytes a.key < Text.bytes b.key ∨
    a.key = b.key ∧ a.projection.before b.projection = true
  /-- Each key has a row for each projection that shows a sample, and no other rows. -/
  mem_rows : ∀ row, row ∈ views.rows ↔ ∃ s,
    ((views.summary row.key).bind fun summary => summary.get? row.projection) = some s ∧
      row.key = s.key ∧ row.run = run ∧ row.value = Quantity.ofBinary64 s.value ∧
      row.timestamp = s.timestamp ∧ row.step = s.step ∧ row.isNaN = s.value.isNaN
  isNaN : ∀ row ∈ views.rows, row.isNaN = true → row.projection = .latest

namespace Store

/-! ### Views of a sound store -/

section Views

variable {ρ σ : Type} {store : Store ρ σ} {run : String}

/-- The views of a run, from its slots that have samples. -/
def views (store : Store ρ σ) (run : String) : Views where
  history key := (store.slot ⟨run, key⟩).history
  summary key := (store.slot ⟨run, key⟩).summary
  keys := (store.shown run).map fun slot => slot.history.key
  histories := (store.shown run).map Slot.history
  overview := ((Overview.ofSlots (store.shown run)).putParams
    (store.params.entries run).entries).putTags (store.tags.entries run).entries
  rows := Slot.rows run (store.shown run)

/-- The slots that are shown of a run are those of its keys. -/
theorem Sound.eq_slot_of_mem_shown (sound : store.Sound) {slot : Slot}
    (member : slot ∈ store.shown run) : store.slot ⟨run, slot.history.key⟩ = slot := by
  obtain ⟨key, rfl, -⟩ := (mem_shown_iff store run slot).1 member
  rw [(sound.slot ⟨run, key⟩).key]

theorem Sound.mem_keys_iff (sound : store.Sound) (key : String) :
    key ∈ (store.views run).keys ↔ (store.slot ⟨run, key⟩).history.samples ≠ [] := by
  have some_held : (store.slot ⟨run, key⟩).history.samples ≠ [] ↔
      (store.slot ⟨run, key⟩).history.isEmpty = false := by
    rw [History.isEmpty, Bool.eq_false_iff, ne_eq, ne_eq, List.isEmpty_iff]
  rw [some_held, views, List.mem_map]
  constructor
  · rintro ⟨slot, member, rfl⟩
    rw [sound.eq_slot_of_mem_shown member]
    obtain ⟨-, -, held⟩ := (mem_shown_iff store run slot).1 member
    exact held
  · intro held
    exact ⟨_, (mem_shown_iff store run _).2 ⟨key, rfl, held⟩, (sound.slot ⟨run, key⟩).key⟩

theorem Sound.get?_samples (sound : store.Sound) (run : String) (p : Projection) (key : String) :
    ((store.views run).overview.samples p).get? key =
      (store.slot ⟨run, key⟩).summary.bind fun summary => summary.get? p := by
  rw [views, Overview.samples_putTags, Overview.samples_putParams, shown,
    Slots.Sound.overview_live sound]
  exact sound.get?_ofSlots (List.Perm.refl _) p key

/-- What an overview shows of a key is one of its samples, and an extreme is not NaN. -/
theorem Sound.mem_of_get?_samples (sound : store.Sound) {p : Projection} {key : String} {s : Sample}
    (found : ((store.views run).overview.samples p).get? key = some s) :
    s ∈ (store.slot ⟨run, key⟩).history.samples ∧ (p ≠ .latest → s.value.isNaN = false) := by
  rw [sound.get?_samples, (sound.slot ⟨run, key⟩).summary] at found
  obtain ⟨summary, made, shown⟩ := Option.bind_eq_some_iff.1 found
  exact Summary.mem_of_get? made shown

/-- A key is among those of a projection if its summary shows a sample there. -/
theorem Sound.mem_samples_keys_iff (sound : store.Sound) (run : String) (p : Projection)
    (key : String) :
    key ∈ ((store.views run).overview.samples p).keys ↔
      ∃ summary, (store.slot ⟨run, key⟩).history.summary? = some summary ∧ summary.get? p ≠ none := by
  rw [Table.mem_keys_iff, sound.get?_samples, (sound.slot ⟨run, key⟩).summary]
  cases (store.slot ⟨run, key⟩).history.summary? <;> simp

theorem Sound.latest_keys (sound : store.Sound) (run : String) :
    (store.views run).overview.latest.keys = (store.views run).keys := by
  apply @eq_of_mem_iff String compare
  · exact List.pairwise_map.2 (store.views run).overview.latest.increasing
  · exact List.pairwise_map.2 (sound.increasing_shown run)
  · intro key
    rw [sound.mem_keys_iff, ne_eq, ← Summary.ofSamples?_eq_none_iff]
    refine (sound.mem_samples_keys_iff run .latest key).trans ?_
    rw [History.summary?]
    cases Summary.ofSamples? (store.slot ⟨run, key⟩).history.samples <;> simp [Summary.get?]

theorem Sound.extreme_keys (sound : store.Sound) (run : String) {p : Projection} (extreme : p ≠ .latest)
    (key : String) :
    key ∈ ((store.views run).overview.samples p).keys ↔
      ∃ s ∈ (store.slot ⟨run, key⟩).history.samples, s.value.isNaN = false := by
  rw [sound.mem_samples_keys_iff]
  cases made : (store.slot ⟨run, key⟩).history.summary? with
  | none =>
    have nothing := (Summary.ofSamples?_eq_none_iff _).1 made
    simp [nothing]
  | some summary =>
    have absent := Summary.get?_eq_none_iff made extreme
    simp [absent]

theorem Sound.increasing_views_rows (sound : store.Sound) (run : String) :
    (store.views run).rows.Pairwise fun a b => a.order b = .lt := by
  rw [views, shown, Slots.Sound.rows_live sound]
  exact Slots.Sound.increasing_rows sound run

theorem Sound.mem_views_rows_iff (sound : store.Sound) (run : String) (row : ProjectionRow) :
    row ∈ (store.views run).rows ↔ ∃ s,
      ((store.slot ⟨run, row.key⟩).summary.bind fun summary => summary.get? row.projection) = some s ∧
        row.key = s.key ∧ row.run = run ∧ row.value = Quantity.ofBinary64 s.value ∧
        row.timestamp = s.timestamp ∧ row.step = s.step ∧ row.isNaN = s.value.isNaN := by
  change row ∈ Slot.rows run (store.shown run) ↔ _
  rw [Slot.mem_rows_iff]
  constructor
  · rintro ⟨slot, member, summary, known, p, s, shown, rfl⟩
    have here := sound.eq_slot_of_mem_shown member
    have placed : s.key = slot.history.key := by
      rw [← here] at known ⊢
      rw [(sound.slot ⟨run, slot.history.key⟩).key_of_get? known shown, here]
    refine ⟨s, ?_, rfl, rfl, rfl, rfl, rfl, rfl⟩
    change (store.slot ⟨run, s.key⟩).summary.bind _ = _
    rw [placed, here, known]
    exact shown
  · rintro ⟨s, found, fields⟩
    obtain ⟨summary, known, shown⟩ := Option.bind_eq_some_iff.1 found
    have held : (store.slot ⟨run, row.key⟩).history.isEmpty = false := by
      rw [Bool.eq_false_iff, ne_eq, ← (sound.slot ⟨run, row.key⟩).summary_eq_none_iff, known]
      nofun
    refine ⟨_, (mem_shown_iff store run _).2 ⟨row.key, rfl, held⟩, summary, known, row.projection, s,
      shown, ?_⟩
    cases row
    simp only at fields
    simp [ProjectionRow.ofSample, fields]

theorem Sound.agree (sound : store.Sound) (run : String) : (store.views run).Agree run where
  increasing := List.pairwise_map.2
    ((sound.increasing_shown run).imp fun order => (Text.compare_eq_lt_iff _ _).1 order)
  mem_keys key := sound.mem_keys_iff key
  histories := by
    rw [views, List.map_map]
    apply List.map_congr_left
    intro slot member
    exact congrArg Slot.history (sound.eq_slot_of_mem_shown member).symm
  samples p key := sound.get?_samples run p key
  latest := sound.latest_keys run
  extremes _ extreme key := sound.extreme_keys run extreme key
  ascending := by
    refine (sound.increasing_views_rows run).imp fun {a b} order => ?_
    rw [ProjectionRow.order_eq_lt_iff] at order
    exact order.imp_left (Text.compare_eq_lt_iff _ _).1
  mem_rows row := sound.mem_views_rows_iff run row
  isNaN := by
    intro row member nan
    obtain ⟨s, found, -, -, -, -, -, same⟩ := (sound.mem_views_rows_iff run row).1 member
    rw [← sound.get?_samples] at found
    by_contra extreme
    rw [same, (sound.mem_of_get?_samples found).2 extreme] at nan
    cases nan

theorem notes_views (store : Store ρ σ) (run : String) :
    (store.views run).overview.params = store.params.entries run ∧
      (store.views run).overview.tags = store.tags.entries run := by
  obtain ⟨params, tags⟩ := Overview.notes_ofSlots (store.shown run)
  rw [views, Overview.putTags_eq, Overview.putParams_eq]
  simp only [params, tags, Table.insertAll_entries, and_self]

/-- The slots of a run may be met in any order, and so may its params and tags. -/
theorem Sound.views_of_perm (sound : store.Sound) {slots : List Slot}
    {params tags : List (String × String)} (perm : slots.Perm (Slots.ofRun store.slots run))
    (first : params.Perm (store.params.entries run).entries)
    (second : tags.Perm (store.tags.entries run).entries) :
    Slot.keys slots = (store.views run).keys ∧ Slot.histories slots = (store.views run).histories ∧
      ((Overview.ofSlots slots).putParams params).putTags tags = (store.views run).overview ∧
      Slot.sortedRows run slots = (store.views run).rows := by
  refine ⟨sound.keys_of_perm perm, sound.histories_of_perm perm, ?_, sound.rows_of_perm perm⟩
  obtain ⟨noParams, noTags⟩ := Overview.notes_ofSlots slots
  obtain ⟨ownParams, ownTags⟩ := store.notes_views run
  apply Overview.ext_samples
  · intro p
    apply Table.ext_get?
    intro key
    rw [Overview.samples_putTags, Overview.samples_putParams, sound.get?_ofSlots perm,
      sound.get?_samples]
  · rw [ownParams, Overview.putTags_eq, Overview.putParams_eq]
    simp only [noParams, Table.insertAll_of_perm first]
  · rw [ownTags, Overview.putTags_eq, Overview.putParams_eq]
    simp only [noTags, Table.insertAll_of_perm second]

theorem Sound.isEmpty_overview_iff (sound : store.Sound) (run : String) :
    (store.views run).overview.isEmpty = true ↔ (store.views run).keys = [] ∧
      (store.params.entries run).isEmpty = true ∧ (store.tags.entries run).isEmpty = true := by
  obtain ⟨params, tags⟩ := store.notes_views run
  have latest : (store.views run).overview.latest.isEmpty = true ↔ (store.views run).keys = [] := by
    rw [← sound.latest_keys, Table.isEmpty, Table.keys, List.isEmpty_iff, List.map_eq_nil_iff]
  rw [Overview.isEmpty, Bool.and_eq_true, Bool.and_eq_true, params, tags, latest, and_assoc]

end Views

/-! ### Views of a known run -/

variable {ρ σ : Type} [Roster ρ]

/-- The store answers every question about a run from the views. -/
structure Shows (store : Store ρ σ) (run : String) (views : Views) : Prop where
  history : ∀ key, store.history run key = .ok (views.history key)
  summary : ∀ key, store.summary run key = .ok (views.summary key)
  snapshot : ∀ key, store.snapshot run key = .ok (views.history key, views.summary key)
  keys : store.keys run = .ok views.keys
  histories : store.histories run = .ok views.histories
  overview : store.overview run = .ok views.overview
  rows : store.rows run = .ok views.rows

theorem Sound.shows {store : Store ρ σ} (sound : store.Sound) {run : String}
    (known : store.knows run = true) : store.Shows run (store.views run) where
  history key := (history_eq store run key).trans (answerFor_of_known known _)
  summary key := (summary_eq store run key).trans (answerFor_of_known known _)
  snapshot key := (snapshot_eq store run key).trans (answerFor_of_known known _)
  keys := (keys_eq store run).trans (answerFor_of_known known _)
  histories := (histories_eq store run).trans (answerFor_of_known known _)
  overview := (sound.overview_eq run).trans (answerFor_of_known known _)
  rows := (sound.rows_eq run).trans (answerFor_of_known known _)

variable [Journal σ]

theorem isEmpty_notes_after (settings : Settings) (registration : Registration ρ) (journal : σ)
    (events : List (Event ρ)) (book : Notebook) (run : String) :
    let start := empty settings registration journal
    (((start.after events).notes book).entries run).isEmpty = true ↔
      start.notedDuring book run events = [] := by
  intro start
  have nothing : (start.notes book).entries run = Table.empty := by
    cases book <;> rfl
  rw [after_notes, nothing, Table.isEmpty_insertAll, ← List.isEmpty_iff]
  rfl

/-- After any calls, failed ones among them, all views of a known run are answered and agree with each
other. Its histories hold what has been accepted of their metrics, if the roster is steady. Its
overview is empty if no key has samples and no param or tag has been set for the run, and only then.
In whatever order the slots of the run, its params and its tags are met, those with samples or without,
the views gathered from them are the same. -/
theorem projections_agree (settings : Settings) (registration : Registration ρ) (journal : σ)
    (events : List (Event ρ)) (run : String)
    (known : ((empty settings registration journal).after events).knows run = true) :
    let start := empty settings registration journal
    let store := start.after events
    ∃ views : Views, store.Shows run views ∧ views.Agree run ∧
      (Roster.Steady ρ → ∀ key, (views.history key).run = run ∧ (views.history key).key = key ∧
        (views.history key).samples = samplesOf ⟨run, key⟩ (start.acceptedDuring events)) ∧
      (views.overview.isEmpty = true ↔ views.keys = [] ∧ start.notedDuring .params run events = [] ∧
        start.notedDuring .tags run events = []) ∧
      ∀ slots params tags, slots.Perm (store.runSlots run) →
        params.Perm (store.params.entries run).entries →
        tags.Perm (store.tags.entries run).entries →
        Slot.keys slots = views.keys ∧ Slot.histories slots = views.histories ∧
          ((Overview.ofSlots slots).putParams params).putTags tags = views.overview ∧
          Slot.sortedRows run slots = views.rows := by
  intro start store
  have sound : store.Sound := after_sound settings registration journal events
  refine ⟨store.views run, sound.shows known, sound.agree run, ?_, ?_, ?_⟩
  · intro steady key
    have here := sound.slot ⟨run, key⟩
    have extended := after_extends_accepted start (empty_sound settings registration journal) events
    exact ⟨here.run, here.key, extended.slots.samples ⟨run, key⟩⟩
  · rw [sound.isEmpty_overview_iff]
    exact and_congr_right fun _ => and_congr
      (isEmpty_notes_after settings registration journal events .params run)
      (isEmpty_notes_after settings registration journal events .tags run)
  · intro slots params tags perm first second
    exact sound.views_of_perm perm first second

/-- One key has no samples, and one has no value but NaN. -/
theorem projections_of_unlike_keys :
    let store : Store RunSet Silent := (empty {} (.own RunSet.empty) .mk).after
      [.call (.register "run"), .call (.replay (History.empty "run" "idle")),
        .call (.record "run" ⟨"loss", .nan, 0, 1⟩), .call (.record "run" ⟨"accuracy", ⟨1⟩, 0, 1⟩)]
    ∃ views : Views, store.Shows "run" views ∧ views.Agree "run" ∧
      views.keys = ["accuracy", "loss"] ∧ views.overview.latest.keys = ["accuracy", "loss"] ∧
      ("loss" ∉ views.overview.lowest.keys) ∧ views.overview.isEmpty = false ∧
      Slot.keys (store.runSlots "run").reverse = ["accuracy", "loss"] := by
  intro store
  obtain ⟨views, shows, agree, -, nothing, gathered⟩ :=
    projections_agree {} (.own RunSet.empty : Registration RunSet) Silent.mk
      [.call (.register "run"), .call (.replay (History.empty "run" "idle")),
        .call (.record "run" ⟨"loss", .nan, 0, 1⟩), .call (.record "run" ⟨"accuracy", ⟨1⟩, 0, 1⟩)]
      "run" (by decide)
  have listed : store.keys "run" = .ok ["accuracy", "loss"] := by decide
  have keys : views.keys = ["accuracy", "loss"] := Except.ok.inj (shows.keys.symm.trans listed)
  refine ⟨views, shows, agree, keys, agree.latest.trans keys, ?_, ?_, ?_⟩
  · intro shown
    obtain ⟨s, member, number⟩ := (agree.extremes .lowest (by decide) "loss").1 shown
    have held : store.history "run" "loss" =
        .ok ⟨"run", "loss", [⟨"loss", .nan, 0, 1⟩], by decide⟩ := by
      decide
    rw [Except.ok.inj ((shows.history "loss").symm.trans held)] at member
    cases List.mem_singleton.1 member
    cases number
  · rw [Bool.eq_false_iff, ne_eq, nothing, keys]
    nofun
  · rw [← keys]
    exact (gathered _ _ _ (List.reverse_perm _) (List.Perm.refl _) (List.Perm.refl _)).1

end Store

end RunMetrics

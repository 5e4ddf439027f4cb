import Mathlib.Data.List.Basic
import RunMetrics.Proofs.OverviewEntries
import RunMetrics.Proofs.StoreWrites
import RunMetrics.Store.View

/-!
What a store shows of a run: whether the run is known, its notes, and those of its slots that have
samples. An empty slot is shown nowhere.
-/

set_option autoImplicit false

namespace RunMetrics

open Record (ProjectionRow)

namespace Slots

/-- The slots that have samples. -/
def live (slots : Slots) : Slots := slots.filter fun _ slot => !slot.history.isEmpty

/-- The slots of a run, in order of their keys. -/
def ofRun (slots : Slots) (run : String) : List Slot :=
  (slots.filter fun series _ => series.run == run).values

theorem get?_live (slots : Slots) (series : Series) :
    slots.live.get? series =
      if (slots.slotAt series).history.isEmpty then none else some (slots.slotAt series) := by
  rw [live, Table.get?_filter, slotAt]
  cases slots.get? series with
  | none => rfl
  | some slot =>
    rw [Option.filter_some, Option.getD_some]
    cases slot.history.isEmpty <;> rfl

theorem live_eq_of_slotAt_eq {a b : Slots} (same : ∀ series, a.slotAt series = b.slotAt series) :
    a.live = b.live := by
  apply Table.ext_get?
  intro series
  rw [get?_live, get?_live, same series]

/-- The slots of a run that have samples depend on the metrics of that run alone. -/
theorem ofRun_live_eq {a b : Slots} {run : String}
    (same : ∀ key, a.slotAt ⟨run, key⟩ = b.slotAt ⟨run, key⟩) :
    a.live.ofRun run = b.live.ofRun run := by
  have tables : (a.live.filter fun series _ => series.run == run) =
      b.live.filter fun series _ => series.run == run := by
    apply Table.ext_get?
    rintro ⟨owner, key⟩
    rw [Table.get?_filter, Table.get?_filter, get?_live, get?_live]
    by_cases here : owner = run
    · subst here
      rw [same key]
    · have apart : (owner == run) = false := beq_eq_false_iff_ne.2 here
      simp only [apart, Option.filter_eq_none_iff.2 fun _ _ => Bool.false_ne_true]
  rw [ofRun, tables, ofRun]

theorem ofRun_live (slots : Slots) (run : String) :
    slots.live.ofRun run = (slots.ofRun run).filter fun slot => !slot.history.isEmpty := by
  simp only [ofRun, live, Table.values, Table.filter, List.filter_filter, List.filter_map,
    Function.comp_def]
  congr 2
  funext entry
  exact Bool.and_comm _ _

theorem mem_ofRun_iff (slots : Slots) (run : String) (slot : Slot) :
    slot ∈ slots.ofRun run ↔ ∃ key, slots.get? ⟨run, key⟩ = some slot := by
  rw [ofRun, Table.values, List.mem_map]
  constructor
  · rintro ⟨⟨series, _⟩, kept, rfl⟩
    obtain ⟨present, here⟩ := List.mem_filter.1 kept
    have same : series.run = run := eq_of_beq here
    subst same
    exact ⟨series.key, (Table.mem_entries_iff slots series _).1 present⟩
  · rintro ⟨key, found⟩
    refine ⟨(⟨run, key⟩, slot), List.mem_filter.2 ⟨?_, beq_self_eq_true run⟩, rfl⟩
    exact (Table.mem_entries_iff slots ⟨run, key⟩ slot).2 found

theorem Sound.of_mem_ofRun {slots : Slots} (sound : Sound slots) {run : String} {slot : Slot}
    (member : slot ∈ slots.ofRun run) : ∃ key, slot.Sound ⟨run, key⟩ := by
  obtain ⟨key, found⟩ := (mem_ofRun_iff slots run slot).1 member
  exact ⟨key, sound ⟨run, key⟩ slot found⟩

/-- No key of a run has two slots, and the slots are in order of their keys. -/
theorem Sound.increasing_ofRun {slots : Slots} (sound : Sound slots) (run : String) :
    (slots.ofRun run).Pairwise fun a b => compare a.history.key b.history.key = .lt := by
  let kept := slots.filter fun series _ => series.run == run
  have inside (e : Series × Slot) (member : e ∈ kept.entries) :
      e.1.run = run ∧ e.2.history.key = e.1.key := by
    obtain ⟨present, here⟩ := List.mem_filter.1 member
    have held := (Table.mem_entries_iff slots e.1 e.2).1 present
    exact ⟨eq_of_beq here, (sound e.1 e.2 held).key⟩
  change (kept.entries.map Prod.snd).Pairwise _
  rw [List.pairwise_map]
  refine kept.increasing.imp_of_mem ?_
  intro a b first second order
  obtain ⟨left, key⟩ := inside a first
  obtain ⟨right, other⟩ := inside b second
  have both : (compare a.1.run b.1.run).then (compare a.1.key b.1.key) = .lt := order
  have same : compare run run = .eq := Std.ReflCmp.compare_self
  rw [left, right, same] at both
  rw [key, other]
  exact both

end Slots

/-- The overview of slots, in which those without a summary do not show. -/
def Overview.ofSlots (slots : List Slot) : Overview :=
  slots.foldl (fun o slot =>
    match slot.summary with
    | some summary => o.putSummary summary
    | none => o) Overview.empty

/-- The rows of the summary table of slots. -/
def Slot.rows (run : String) (slots : List Slot) : List ProjectionRow :=
  slots.flatMap fun slot =>
    match slot.summary with
    | some summary => ProjectionRow.ofSummary run summary
    | none => []

namespace Slots

/-- An empty slot has no summary, so it does not show in an overview. -/
theorem Sound.overview_live {slots : Slots} (sound : Sound slots) (run : String) :
    Overview.ofSlots (slots.live.ofRun run) = Overview.ofSlots (slots.ofRun run) := by
  rw [ofRun_live, Overview.ofSlots, Overview.ofSlots, List.foldl_filter]
  apply List.foldl_ext
  intro o slot member
  obtain ⟨key, here⟩ := sound.of_mem_ofRun member
  cases nothing : slot.history.isEmpty with
  | true => simp only [here.summary_eq_none_iff.2 nothing, ite_self]
  | false => rfl

theorem flatMap_filter {α β : Type} (f : α → List β) (keep : α → Bool) {items : List α}
    (skipped : ∀ item ∈ items, keep item = false → f item = []) :
    (items.filter keep).flatMap f = items.flatMap f := by
  induction items with
  | nil => rfl
  | cons item rest ih =>
    have others := ih fun other member => skipped other (List.mem_cons_of_mem _ member)
    rw [List.filter_cons, List.flatMap_cons]
    cases kept : keep item with
    | true => rw [if_pos rfl, List.flatMap_cons, others]
    | false =>
      rw [if_neg Bool.false_ne_true, skipped item List.mem_cons_self kept, List.nil_append, others]

theorem Sound.rows_live {slots : Slots} (sound : Sound slots) (run : String) :
    Slot.rows run (slots.live.ofRun run) = Slot.rows run (slots.ofRun run) := by
  rw [ofRun_live, Slot.rows, flatMap_filter]
  · rfl
  · intro slot member dead
    obtain ⟨key, here⟩ := sound.of_mem_ofRun member
    have nothing : slot.history.isEmpty = true := by
      simpa only [Bool.not_eq_false'] using dead
    rw [here.summary_eq_none_iff.2 nothing]

end Slots

namespace Store

variable {ρ σ : Type}

theorem Sound.drifted_eq_nil {store : Store ρ σ} (sound : store.Sound) : store.drifted = [] := by
  have none_kept : store.slots.entries.filter (fun entry => entry.2.drifted) = [] := by
    rw [List.filter_eq_nil_iff]
    intro entry member
    have present := (Table.mem_entries_iff store.slots entry.1 entry.2).1 member
    rw [(sound entry.1 entry.2 present).not_drifted]
    decide
  simp only [drifted, Table.values, Table.filter, none_kept, List.map_nil]

/-- The slots of a run that have samples, in order of their keys. -/
def shown (store : Store ρ σ) (run : String) : List Slot := (Slots.live store.slots).ofRun run

theorem mem_shown_iff (store : Store ρ σ) (run : String) (slot : Slot) :
    slot ∈ store.shown run ↔
      ∃ key, store.slot ⟨run, key⟩ = slot ∧ slot.history.isEmpty = false := by
  rw [shown, Slots.mem_ofRun_iff]
  apply exists_congr
  intro key
  rw [Slots.get?_live]
  change (if (store.slot ⟨run, key⟩).history.isEmpty then none
    else some (store.slot ⟨run, key⟩)) = _ ↔ _
  constructor
  · intro found
    split at found
    · cases found
    · rename_i some_held
      cases found
      exact ⟨rfl, Bool.eq_false_iff.2 some_held⟩
  · rintro ⟨rfl, some_held⟩
    rw [if_neg (Bool.eq_false_iff.1 some_held)]

theorem Sound.increasing_shown {store : Store ρ σ} (sound : store.Sound) (run : String) :
    (store.shown run).Pairwise fun a b => compare a.history.key b.history.key = .lt := by
  rw [shown, Slots.ofRun_live]
  exact (Slots.Sound.increasing_ofRun sound run).filter _

theorem Sound.of_mem_shown {store : Store ρ σ} (sound : store.Sound) {run : String} {h : History}
    (member : h ∈ (store.shown run).map Slot.history) :
    h.run = run ∧ h.samples ≠ [] ∧ ∃ key, (store.slot ⟨run, key⟩).history = h := by
  obtain ⟨slot, listed, rfl⟩ := List.mem_map.1 member
  obtain ⟨key, rfl, some_held⟩ := (mem_shown_iff store run slot).1 listed
  refine ⟨(sound.slot ⟨run, key⟩).run, ?_, key, rfl⟩
  intro nothing
  rw [History.isEmpty, nothing] at some_held
  cases some_held

variable [Roster ρ]

/-- An answer about a run, which is refused if the run is not known. -/
def answerFor {α : Type} (store : Store ρ σ) (run : String) (answer : α) : Except Failure α :=
  if store.knows run then .ok answer else .error (.unknownRun run)

theorem requireRun_bind {α : Type} (store : Store ρ σ) (run : String) (answer : α) :
    (do
      store.requireRun run
      .ok answer) = store.answerFor run answer := by
  rw [requireRun, answerFor]
  cases store.knows run <;> rfl

theorem summary_eq (store : Store ρ σ) (run key : String) :
    store.summary run key = store.answerFor run (store.slot ⟨run, key⟩).summary :=
  requireRun_bind store run _

theorem history_eq (store : Store ρ σ) (run key : String) :
    store.history run key = store.answerFor run (store.slot ⟨run, key⟩).history :=
  requireRun_bind store run _

theorem snapshot_eq (store : Store ρ σ) (run key : String) :
    store.snapshot run key = store.answerFor run
      ((store.slot ⟨run, key⟩).history, (store.slot ⟨run, key⟩).summary) :=
  requireRun_bind store run _

theorem histories_eq (store : Store ρ σ) (run : String) :
    store.histories run =
      store.answerFor run ((store.shown run).map Slot.history) := by
  rw [shown, Slots.ofRun_live, histories, requireRun_bind, List.filter_map]
  rfl

theorem keys_eq (store : Store ρ σ) (run : String) :
    store.keys run =
      store.answerFor run ((store.shown run).map fun slot => slot.history.key) := by
  rw [keys, histories_eq, answerFor, answerFor]
  cases store.knows run with
  | false => rfl
  | true => exact congrArg Except.ok (List.map_map ..)

theorem Sound.overview_eq {store : Store ρ σ} (sound : store.Sound) (run : String) :
    store.overview run = store.answerFor run
      (((Overview.ofSlots (store.shown run)).putParams
        (store.params.entries run).entries).putTags (store.tags.entries run).entries) := by
  rw [shown, Slots.Sound.overview_live sound]
  exact requireRun_bind store run _

theorem Sound.rows_eq {store : Store ρ σ} (sound : store.Sound) (run : String) :
    store.rows run = store.answerFor run (Slot.rows run (store.shown run)) := by
  rw [shown, Slots.Sound.rows_live sound]
  exact requireRun_bind store run _

theorem answerFor_of_known {store : Store ρ σ} {run : String} (known : store.knows run = true)
    {α : Type} (answer : α) : store.answerFor run answer = .ok answer := by
  rw [answerFor, if_pos known]

/-- Stores with the same slots for a run show the same of it if both know it, but for its notes. -/
theorem views_eq_of_run_eq {ρ' σ' : Type} [Roster ρ'] {a : Store ρ σ} {b : Store ρ' σ'}
    (left : a.Sound) (right : b.Sound) {run : String}
    (same : ∀ key, a.slot ⟨run, key⟩ = b.slot ⟨run, key⟩) (knownLeft : a.knows run = true)
    (knownRight : b.knows run = true) :
    (∀ key, a.snapshot run key = b.snapshot run key) ∧
      a.keys run = b.keys run ∧ a.histories run = b.histories run ∧ a.rows run = b.rows run ∧
      ∃ first second, a.overview run = .ok first ∧ b.overview run = .ok second ∧
        ∀ projection, first.samples projection = second.samples projection := by
  have shown : a.shown run = b.shown run := by
    rw [Store.shown, Slots.ofRun_live_eq same, Store.shown]
  have first := left.overview_eq run
  have second := right.overview_eq run
  rw [answerFor_of_known knownLeft] at first
  rw [answerFor_of_known knownRight] at second
  refine ⟨fun key => ?_, ?_, ?_, ?_, _, _, first, second, fun projection => ?_⟩
  · simp only [snapshot_eq, answerFor_of_known, knownLeft, knownRight, same]
  · simp only [keys_eq, answerFor_of_known, knownLeft, knownRight, shown]
  · simp only [histories_eq, answerFor_of_known, knownLeft, knownRight, shown]
  · simp only [left.rows_eq, right.rows_eq, answerFor_of_known, knownLeft, knownRight, shown]
  · simp only [Overview.samples_putTags, Overview.samples_putParams, shown]

end Store

end RunMetrics

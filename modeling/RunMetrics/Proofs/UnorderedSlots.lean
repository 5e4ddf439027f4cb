import RunMetrics.Proofs.SampleFolds
import RunMetrics.Proofs.Sorting
import RunMetrics.Proofs.StoreViews

/-!
Views of slots that come in any order. No key of a run has two slots, so keys, histories and rows are
in strict order once they are sorted, and an overview takes each of its samples from one slot. What is
shown of a run does not depend on the order in which its slots are met.
-/

set_option autoImplicit false

namespace RunMetrics

open Record (ProjectionRow)

/-! ### Rows of the summary table -/

/-- By key, then by projection. -/
def Record.ProjectionRow.order (a b : ProjectionRow) : Ordering :=
  (compare a.key b.key).then (compare a.projection.code b.projection.code)

instance : Std.TransCmp ProjectionRow.order :=
  inferInstanceAs (Std.TransCmp (compareLex (compareOn ProjectionRow.key)
    (compareOn fun row : ProjectionRow => row.projection.code)))

theorem Record.ProjectionRow.order_eq_lt_iff (a b : ProjectionRow) :
    a.order b = .lt ↔ compare a.key b.key = .lt ∨ a.key = b.key ∧ a.projection.before b.projection := by
  unfold order Projection.before
  rw [Ordering.then_eq_lt, Std.LawfulEqCmp.compare_eq_iff_eq, Nat.compare_eq_lt]
  simp

namespace Slot

variable {slot : Slot} {series : Series} {slots : List Slot} {run : String}

/-- What a slot's summary shows is one of its samples, so it has the slot's key. -/
theorem Sound.key_of_get? (sound : slot.Sound series) {summary : Summary} {p : Projection}
    {s : Sample} (known : slot.summary = some summary) (shown : summary.get? p = some s) :
    s.key = slot.history.key := by
  rw [sound.summary] at known
  exact slot.history.keyed s (Summary.mem_of_get? known shown).1

theorem mem_rows_iff (run : String) (slots : List Slot) (row : ProjectionRow) :
    row ∈ rows run slots ↔ ∃ slot ∈ slots, ∃ summary, slot.summary = some summary ∧
      ∃ p s, summary.get? p = some s ∧ ProjectionRow.ofSample run p s = row := by
  rw [rows, List.mem_flatMap]
  refine exists_congr fun slot => and_congr_right fun _ => ?_
  cases slot.summary with
  | none => simp
  | some summary =>
    have every (p : Projection) : p ∈ Projection.all := by
      cases p <;> decide
    simp [ProjectionRow.ofSummary, every]

end Slot

namespace Slots

variable {slots : Slots} {run : String}

theorem Sound.key_of_mem_ofRun (sound : Sound slots) {slot : Slot} (member : slot ∈ slots.ofRun run)
    {summary : Summary} {p : Projection} {s : Sample} (known : slot.summary = some summary)
    (shown : summary.get? p = some s) : s.key = slot.history.key := by
  obtain ⟨key, here⟩ := sound.of_mem_ofRun member
  exact here.key_of_get? known shown

/-- The rows of a slot have its key, and are in order of their projections. -/
theorem Sound.increasing_rows (sound : Sound slots) (run : String) :
    (Slot.rows run (slots.ofRun run)).Pairwise fun a b => a.order b = .lt := by
  rw [Slot.rows, List.pairwise_flatMap]
  constructor
  · intro slot member
    cases known : slot.summary with
    | none => exact .nil
    | some summary =>
      have ascending : Projection.all.Pairwise fun p q => p.before q = true := by decide
      change (ProjectionRow.ofSummary run summary).Pairwise _
      rw [ProjectionRow.ofSummary, List.pairwise_filterMap]
      refine ascending.imp ?_
      intro p q before x left y right
      obtain ⟨s, shown, rfl⟩ := Option.map_eq_some_iff.1 left
      obtain ⟨t, other, rfl⟩ := Option.map_eq_some_iff.1 right
      have first : s.key = slot.history.key := sound.key_of_mem_ofRun member known shown
      have second : t.key = slot.history.key := sound.key_of_mem_ofRun member known other
      rw [Record.ProjectionRow.order_eq_lt_iff]
      exact Or.inr ⟨first.trans second.symm, before⟩
  · have keys (slot : Slot) (member : slot ∈ slots.ofRun run) (row : ProjectionRow)
        (there : row ∈ Slot.rows run [slot]) : row.key = slot.history.key := by
      obtain ⟨_, same, summary, known, p, s, shown, rfl⟩ :=
        (Slot.mem_rows_iff run [slot] row).1 there
      rw [List.mem_singleton.1 same] at known
      exact sound.key_of_mem_ofRun member known shown
    refine (sound.increasing_ofRun run).imp_of_mem ?_
    intro a b first second order x left y right
    rw [Record.ProjectionRow.order_eq_lt_iff, keys a first x (by simpa [Slot.rows] using left),
      keys b second y (by simpa [Slot.rows] using right)]
    exact Or.inl order

/-- However the slots of a run come, the one of a key is found among them. -/
theorem Sound.find?_eq_get? (sound : Sound slots) {listed : List Slot}
    (perm : listed.Perm (slots.ofRun run)) (key : String) :
    listed.find? (fun slot => slot.history.key = key) = slots.get? ⟨run, key⟩ := by
  have place (slot : Slot) : slot ∈ listed ∧ slot.history.key = key ↔
      slots.get? ⟨run, key⟩ = some slot := by
    rw [perm.mem_iff, mem_ofRun_iff]
    constructor
    · rintro ⟨⟨other, found⟩, same⟩
      have own : slot.history.key = other := (sound ⟨run, other⟩ slot found).key
      rw [← same, own]
      exact found
    · intro found
      exact ⟨⟨key, found⟩, (sound ⟨run, key⟩ slot found).key⟩
  cases found : listed.find? fun slot => slot.history.key = key with
  | none =>
    cases held : slots.get? ⟨run, key⟩ with
    | none => rfl
    | some slot =>
      obtain ⟨member, same⟩ := (place slot).2 held
      simpa [same] using List.find?_eq_none.1 found slot member
  | some slot =>
    have same : slot.history.key = key := by simpa using List.find?_some found
    exact ((place slot).1 ⟨List.mem_of_find?_eq_some found, same⟩).symm

end Slots

/-! ### Overviews -/

namespace Overview

theorem samples_ofSlots_concat (slots : List Slot) (slot : Slot) (p : Projection) :
    (ofSlots (slots ++ [slot])).samples p =
      match slot.summary.bind fun summary => summary.get? p with
      | some s => ((ofSlots slots).samples p).insert s.key s
      | none => (ofSlots slots).samples p := by
  rw [ofSlots, List.foldl_append, List.foldl_cons, List.foldl_nil]
  cases slot.summary with
  | none => rfl
  | some summary => exact samples_putSummary _ summary p

/-- Slots bring no notes. -/
theorem notes_ofSlots (slots : List Slot) :
    (ofSlots slots).params = Table.empty ∧ (ofSlots slots).tags = Table.empty := by
  apply List.foldlRecOn (motive := fun o : Overview => o.params = Table.empty ∧ o.tags = Table.empty)
  · exact ⟨rfl, rfl⟩
  · intro o same slot _
    cases slot.summary with
    | none => exact same
    | some summary => simpa using same

/-- In an overview of slots with different keys each key has what its own slot shows. -/
theorem get?_ofSlots {slots : List Slot}
    (own : ∀ slot ∈ slots, ∀ summary p s, slot.summary = some summary →
      summary.get? p = some s → s.key = slot.history.key)
    (distinct : slots.Pairwise fun a b => a.history.key ≠ b.history.key) (p : Projection)
    (key : String) :
    ((ofSlots slots).samples p).get? key =
      (slots.find? fun slot => slot.history.key = key).bind fun slot =>
        slot.summary.bind fun summary => summary.get? p := by
  induction slots using List.reverseRecOn with
  | nil =>
    change (empty.samples p).get? key = none
    rw [samples_empty, Table.get?_empty]
  | append_singleton earlier slot ih =>
    obtain ⟨others, -, apart⟩ := List.pairwise_append.1 distinct
    have before := ih (fun a member => own a (List.mem_append_left _ member)) others
    have absent (same : slot.history.key = key) :
        earlier.find? (fun slot => slot.history.key = key) = none := by
      rw [List.find?_eq_none]
      intro a member
      have differ := apart a member slot List.mem_cons_self
      rw [same] at differ
      simpa using differ
    rw [List.find?_append, List.find?_singleton, samples_ofSlots_concat]
    cases shown : slot.summary.bind fun summary => summary.get? p with
    | none =>
      by_cases same : slot.history.key = key
      · simp [before, absent same, same, shown]
      · simp [before, same]
    | some s =>
      obtain ⟨summary, known, present⟩ := Option.bind_eq_some_iff.1 shown
      have placed : s.key = slot.history.key :=
        own slot (List.mem_append_right _ List.mem_cons_self) summary p s known present
      by_cases same : slot.history.key = key
      · simp [absent same, same, shown, placed]
      · have elsewhere : key ≠ s.key := fun equal => same (placed.symm.trans equal.symm)
        simp [Table.get?_insert_of_ne _ _ elsewhere, before, same]

end Overview

/-! ### Slots in any order -/

namespace Slot

/-- The keys of slots that have samples. -/
def keys (slots : List Slot) : List String :=
  sortedBy compare ((slots.filter fun slot => !slot.history.isEmpty).map fun slot => slot.history.key)

/-- The histories of slots that have samples, by key. -/
def histories (slots : List Slot) : List History :=
  sortedBy (compareOn History.key) ((slots.map Slot.history).filter fun h => !h.isEmpty)

/-- The rows of the summary table of slots, by key and projection. -/
def sortedRows (run : String) (slots : List Slot) : List ProjectionRow :=
  sortedBy ProjectionRow.order (rows run slots)

end Slot

namespace Store

variable {ρ σ : Type} {store : Store ρ σ} {run : String} {listed : List Slot}

theorem Sound.keys_of_perm (sound : store.Sound) (perm : listed.Perm (Slots.ofRun store.slots run)) :
    Slot.keys listed = (store.shown run).map fun slot => slot.history.key := by
  apply sortedBy_eq
  · exact List.pairwise_map.2 (sound.increasing_shown run)
  · rw [shown, Slots.ofRun_live]
    exact (perm.filter _).map _

theorem Sound.histories_of_perm (sound : store.Sound)
    (perm : listed.Perm (Slots.ofRun store.slots run)) :
    Slot.histories listed = (store.shown run).map Slot.history := by
  apply sortedBy_eq
  · exact List.pairwise_map.2 (sound.increasing_shown run)
  · rw [shown, Slots.ofRun_live, List.filter_map]
    exact (perm.filter _).map _

theorem Sound.rows_of_perm (sound : store.Sound)
    (perm : listed.Perm (Slots.ofRun store.slots run)) :
    Slot.sortedRows run listed = Slot.rows run (store.shown run) := by
  rw [shown, Slots.Sound.rows_live sound]
  exact sortedBy_eq (Slots.Sound.increasing_rows sound run) (perm.flatMap_right _)

/-- What an overview shows of a key is what the summary of its slot shows. -/
theorem Sound.get?_ofSlots (sound : store.Sound)
    (perm : listed.Perm (Slots.ofRun store.slots run)) (p : Projection) (key : String) :
    ((Overview.ofSlots listed).samples p).get? key =
      (store.slot ⟨run, key⟩).summary.bind fun summary => summary.get? p := by
  have increasing := Slots.Sound.increasing_ofRun sound run
  have distinct : listed.Pairwise fun a b => a.history.key ≠ b.history.key :=
    (perm.pairwise_iff fun differ => Ne.symm differ).2
      (increasing.imp fun order => Table.ne_of_compare_lt order)
  rw [Overview.get?_ofSlots _ distinct, Slots.Sound.find?_eq_get? sound perm, Store.slot]
  · cases store.slots.get? ⟨run, key⟩ <;> rfl
  · intro slot member summary p s known shown
    exact Slots.Sound.key_of_mem_ofRun sound (perm.mem_iff.1 member) known shown

end Store

end RunMetrics

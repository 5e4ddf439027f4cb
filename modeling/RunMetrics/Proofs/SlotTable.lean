import RunMetrics.Proofs.HistoryRows
import RunMetrics.Proofs.RunningSummary
import RunMetrics.Proofs.TableLookup
import RunMetrics.Store.Basic

/-!
Slots and tables of them. A slot is sound at a metric if its history is that of the metric and its
summary is the one of its history. Every write of a store makes its table of slots grow by rows: each
metric gets the samples of its own rows, behind those it has, and stays sound.
-/

set_option autoImplicit false

namespace RunMetrics

namespace Slot

/-- The slot is the one of a metric, and its summary is that of its history. -/
structure Sound (slot : Slot) (series : Series) : Prop where
  run : slot.history.run = series.run
  key : slot.history.key = series.key
  summary : slot.summary = slot.history.summary?

theorem empty_sound (series : Series) : (empty series).Sound series := ⟨rfl, rfl, rfl⟩

/-- At its metric a sound slot is determined by its samples. -/
theorem Sound.eq_of_samples_eq {a b : Slot} {series : Series} (left : a.Sound series)
    (right : b.Sound series) (same : a.history.samples = b.history.samples) : a = b := by
  have histories : a.history = b.history :=
    History.eq_of_samples_eq (left.run.trans right.run.symm) (left.key.trans right.key.symm) same
  have summaries : a.summary = b.summary := by
    rw [left.summary, right.summary, histories]
  cases a
  cases b
  cases histories
  cases summaries
  rfl

theorem Sound.summary_eq_none_iff {slot : Slot} {series : Series} (sound : slot.Sound series) :
    slot.summary = none ↔ slot.history.isEmpty = true := by
  rw [sound.summary, History.summary?, Summary.ofSamples?_eq_none_iff, History.isEmpty,
    List.isEmpty_iff]

theorem Sound.not_drifted {slot : Slot} {series : Series} (sound : slot.Sound series) :
    slot.drifted = false := by
  rw [drifted, decide_eq_false_iff_not]
  exact fun differ => differ sound.summary.symm

theorem Sound.eq_empty {slot : Slot} {series : Series} (sound : slot.Sound series)
    (nothing : slot.history.isEmpty = true) : slot = empty series :=
  sound.eq_of_samples_eq (empty_sound series) (List.isEmpty_iff.1 nothing)

/-- A sample of the slot's own key is never refused. -/
theorem Sound.add {slot : Slot} {series : Series} (sound : slot.Sound series) {s : Sample}
    (same : s.key = series.key) :
    ∃ next, slot.add s = .ok next ∧ next.Sound series ∧
      next.history.samples = slot.history.samples ++ [s] := by
  have fits : s.key = slot.history.key := same.trans sound.key.symm
  refine ⟨⟨slot.history.push s fits, some (Summary.extend slot.summary s)⟩, ?_, ?_, rfl⟩
  · simp only [Slot.add, History.append, fits, ↓reduceDIte]
    rfl
  · refine ⟨sound.run, sound.key, ?_⟩
    rw [sound.summary]
    exact (Summary.ofSamples?_concat slot.history.samples s).symm

theorem Sound.addAll {slot : Slot} {series : Series} (sound : slot.Sound series)
    {samples : List Sample} (same : ∀ s ∈ samples, s.key = series.key) :
    ∃ next, slot.addAll samples = (.ok (), next) ∧ next.Sound series ∧
      next.history.samples = slot.history.samples ++ samples := by
  induction samples generalizing slot with
  | nil => exact ⟨slot, rfl, sound, (List.append_nil _).symm⟩
  | cons s rest ih =>
    obtain ⟨middle, added, middleSound, middleSamples⟩ := sound.add (same s List.mem_cons_self)
    obtain ⟨last, all, lastSound, lastSamples⟩ :=
      ih middleSound fun t member => same t (List.mem_cons_of_mem _ member)
    refine ⟨last, ?_, lastSound, ?_⟩
    · rw [Slot.addAll, added]
      exact all
    · rw [lastSamples, middleSamples, List.append_assoc, List.singleton_append]

end Slot

/-- The slots of a store, by metric. -/
abbrev Slots := Table Series Slot

namespace Slots

open Snapshot (Row samplesOf)

/-- The slot of a metric; an empty one if there is none. -/
def slotAt (slots : Slots) (series : Series) : Slot :=
  (slots.get? series).getD (Slot.empty series)

/-- Every slot is sound at its place. -/
def Sound (slots : Slots) : Prop :=
  ∀ series slot, slots.get? series = some slot → slot.Sound series

/-- The slots without the one of a metric, if that one has no samples. -/
def discarded (slots : Slots) (series : Series) : Slots :=
  if (slots.slotAt series).history.isEmpty then slots.erase series else slots

/-- Each metric has got the samples of its own rows behind those that it had. -/
structure Grown (before after : Slots) (rows : List Row) : Prop where
  sound : Sound after
  samples : ∀ series, (slotAt after series).history.samples =
    (slotAt before series).history.samples ++ samplesOf series rows

theorem slotAt_of_get?_eq_some {slots : Slots} {series : Series} {slot : Slot}
    (found : slots.get? series = some slot) : slots.slotAt series = slot := by
  rw [slotAt, found, Option.getD_some]

theorem slotAt_of_get?_eq_none {slots : Slots} {series : Series}
    (missing : slots.get? series = none) : slots.slotAt series = Slot.empty series := by
  rw [slotAt, missing, Option.getD_none]

theorem slotAt_insert_self (slots : Slots) (series : Series) (slot : Slot) :
    slotAt (slots.insert series slot) series = slot :=
  slotAt_of_get?_eq_some (Table.get?_insert_self slots series slot)

theorem slotAt_insert_of_ne (slots : Slots) {series other : Series} (slot : Slot)
    (apart : other ≠ series) : slotAt (slots.insert series slot) other = slotAt slots other := by
  rw [slotAt, Table.get?_insert_of_ne slots slot apart, slotAt]

theorem slotAt_erase_self (slots : Slots) (series : Series) :
    slotAt (slots.erase series) series = Slot.empty series :=
  slotAt_of_get?_eq_none (Table.get?_erase_self slots series)

theorem slotAt_erase_of_ne (slots : Slots) {series other : Series} (apart : other ≠ series) :
    slotAt (slots.erase series) other = slotAt slots other := by
  rw [slotAt, Table.get?_erase_of_ne slots apart, slotAt]

theorem empty_sound : Sound Table.empty := by
  intro series slot found
  cases found

theorem Sound.slotAt {slots : Slots} (sound : Sound slots) (series : Series) :
    (slots.slotAt series).Sound series := by
  unfold Slots.slotAt
  cases found : slots.get? series with
  | none => exact Slot.empty_sound series
  | some slot => exact sound series slot found

theorem Sound.insert {slots : Slots} (sound : Sound slots) {series : Series} {slot : Slot}
    (fresh : slot.Sound series) : Sound (slots.insert series slot) := by
  intro other found present
  by_cases same : other = series
  · subst same
    rw [Table.get?_insert_self] at present
    cases present
    exact fresh
  · rw [Table.get?_insert_of_ne slots slot same] at present
    exact sound other found present

theorem Sound.erase {slots : Slots} (sound : Sound slots) (series : Series) :
    Sound (slots.erase series) := by
  intro other found present
  by_cases same : other = series
  · subst same
    rw [Table.get?_erase_self] at present
    cases present
  · rw [Table.get?_erase_of_ne slots same] at present
    exact sound other found present

theorem Sound.grown {slots : Slots} (sound : Sound slots) : Grown slots slots [] :=
  ⟨sound, fun _ => (List.append_nil _).symm⟩

theorem Grown.trans {first second third : Slots} {rows more : List Row}
    (left : Grown first second rows) (right : Grown second third more) :
    Grown first third (rows ++ more) := by
  refine ⟨right.sound, fun series => ?_⟩
  rw [right.samples, left.samples, List.append_assoc, Snapshot.samplesOf_append]

/-- A slot replaced by one that goes on with rows of its metric. -/
theorem Sound.grown_insert {slots : Slots} (sound : Sound slots) {series : Series} {slot : Slot}
    (fresh : slot.Sound series) {rows : List Row} (inside : ∀ row ∈ rows, row.series = series)
    (samples : slot.history.samples =
      (slots.slotAt series).history.samples ++ rows.map Row.sample) :
    Grown slots (slots.insert series slot) rows := by
  refine ⟨sound.insert fresh, fun other => ?_⟩
  by_cases same : other = series
  · subst same
    rw [slotAt_insert_self, samples, Snapshot.samplesOf_eq_map inside]
  · rw [slotAt_insert_of_ne slots slot same, Snapshot.samplesOf_eq_nil, List.append_nil]
    intro row member there
    exact same (there.symm.trans (inside row member))

/-- Dropping an empty slot shows nothing. -/
theorem Sound.grown_discarded {slots : Slots} (sound : Sound slots) (series : Series) :
    Grown slots (slots.discarded series) [] := by
  unfold discarded
  split
  · rename_i nothing
    refine ⟨sound.erase series, fun other => ?_⟩
    rw [Snapshot.samplesOf_nil, List.append_nil]
    by_cases same : other = series
    · subst same
      rw [slotAt_erase_self, (sound.slotAt other).eq_empty nothing]
    · rw [slotAt_erase_of_ne slots same]
  · exact sound.grown

/-- A slot that is opened and dropped again leaves what dropping it alone leaves. -/
theorem discarded_insert_slotAt (slots : Slots) (series : Series) :
    discarded (slots.insert series (slots.slotAt series)) series = slots.discarded series := by
  rw [discarded, discarded, slotAt_insert_self]
  split
  · exact Table.erase_insert_self slots series _
  · rename_i something
    cases found : slots.get? series with
    | none =>
      rw [slotAt_of_get?_eq_none found] at something
      exact absurd rfl something
    | some slot =>
      rw [slotAt_of_get?_eq_some found]
      exact Table.insert_of_get?_eq_some found

end Slots

end RunMetrics

import RunMetrics.Proofs.RunRegistration
import RunMetrics.Proofs.TableLookup
import RunMetrics.Workspace

/-!
Stores in a workspace. A store is kept without the states of its roster and its journal, is assembled
from them for a call, and is put back with what the call has made of them. Putting back what was just
assembled changes nothing, and what is put back is what the next call finds.
-/

set_option autoImplicit false

namespace RunMetrics

instance : Roster.Steady AnyRoster := ⟨fun _ _ _ => rfl⟩

namespace Pool

variable {α : Type} {pool : Pool α} {number : Nat} {old : α}

theorem get?_set_self (there : pool.get? number = some old) (thing : α) :
    (pool.set number thing).get? number = some thing := by
  have inside : number < pool.things.length := (List.getElem?_eq_some_iff.1 there).1
  exact List.getElem?_set_self inside

theorem get?_set_of_ne {other : Nat} (apart : other ≠ number) (thing : α) :
    (pool.set other thing).get? number = pool.get? number := List.getElem?_set_ne apart

theorem set_set (pool : Pool α) (number : Nat) (thing other : α) :
    (pool.set number thing).set number other = pool.set number other := by
  rw [set, set, set, List.set_set]

theorem set_eq_self (there : pool.get? number = some old) : pool.set number old = pool := by
  obtain ⟨inside, same⟩ := List.getElem?_eq_some_iff.1 there
  rw [set, ← same, List.set_getElem_self inside]

end Pool

namespace Workspace

/-- What an assembled store has from the one that is kept and from the pools. -/
structure Assembles (w : Workspace) (kept : Store Nat Nat) (store : Store AnyRoster AnyJournal) :
    Prop where
  settings : store.settings = kept.settings
  slots : store.slots = kept.slots
  params : store.params = kept.params
  tags : store.tags = kept.tags
  journal : w.journals.get? kept.journal = some store.journal
  registration : (∃ runs, kept.registration = .own runs ∧ store.registration = .own runs) ∨
    ∃ number roster, kept.registration = .shared number ∧ store.registration = .shared roster ∧
      w.rosters.get? number = some roster

theorem assemble?_eq_some_iff {w : Workspace} {kept : Store Nat Nat}
    {store : Store AnyRoster AnyJournal} :
    w.assemble? kept = some store ↔ w.Assembles kept store := by
  obtain ⟨settings, registration, journal, slots, params, tags⟩ := kept
  constructor
  · intro assembled
    cases registration with
    | own runs =>
      cases found : w.journals.get? journal with
      | none => simp [assemble?, found] at assembled
      | some state =>
        simp only [assemble?, found] at assembled
        cases assembled
        exact ⟨rfl, rfl, rfl, rfl, found, Or.inl ⟨runs, rfl, rfl⟩⟩
    | shared number =>
      cases listed : w.rosters.get? number with
      | none => simp [assemble?, listed] at assembled
      | some roster =>
        cases found : w.journals.get? journal with
        | none => simp [assemble?, found, listed] at assembled
        | some state =>
          simp only [assemble?, found, listed] at assembled
          cases assembled
          exact ⟨rfl, rfl, rfl, rfl, found, Or.inr ⟨number, roster, rfl, rfl, listed⟩⟩
  · rintro ⟨rfl, rfl, rfl, rfl, found, ⟨runs, rfl, own⟩ | ⟨number, roster, rfl, shared, listed⟩⟩
    · simp only [assemble?, found]
      cases store
      cases own
      rfl
    · simp only [assemble?, found, listed]
      cases store
      cases shared
      rfl

theorem putBack_journals (w : Workspace) (name : String) (kept : Store Nat Nat)
    (after : Store AnyRoster AnyJournal) :
    (w.putBack name kept after).journals = w.journals.set kept.journal after.journal := by
  unfold putBack
  split
  rfl

/-- A store found after one is put back is that one, or has been there before. -/
theorem get?_putBack {w : Workspace} {name other : String} {kept present : Store Nat Nat}
    {after : Store AnyRoster AnyJournal}
    (given : (w.putBack name kept after).stores.get? other = some present) :
    (other = name ∧ present.journal = kept.journal ∧ present.slots = after.slots) ∨
      (other ≠ name ∧ w.stores.get? other = some present) := by
  unfold putBack at given
  simp only at given
  by_cases same : other = name
  · subst same
    rw [Table.get?_insert_self] at given
    cases given
    exact Or.inl ⟨rfl, rfl, rfl⟩
  · rw [Table.get?_insert_of_ne _ _ same] at given
    exact Or.inr ⟨same, given⟩

/-- A store that is put back as it was assembled leaves the workspace as it was. -/
theorem Assembles.putBack_eq {w : Workspace} {kept : Store Nat Nat}
    {store : Store AnyRoster AnyJournal} (assembles : w.Assembles kept store) {name : String}
    (found : w.stores.get? name = some kept) : w.putBack name kept store = w := by
  have stores : w.stores.insert name kept = w.stores := by
    apply Table.ext_get?
    intro other
    by_cases same : other = name
    · rw [same, Table.get?_insert_self, found]
    · rw [Table.get?_insert_of_ne _ _ same]
  have journals := Pool.set_eq_self assembles.journal
  obtain ⟨settings, registration, journal, slots, params, tags⟩ := kept
  obtain ⟨_, rfl, rfl, rfl, -, ⟨runs, rfl, own⟩ | ⟨number, roster, rfl, shared, listed⟩⟩ := assembles
  · simp only [putBack, own, journals, stores]
  · simp only [putBack, shared, journals, stores, Pool.set_eq_self listed]

/-- What is put back is assembled again, and may be overwritten by what is put back next. -/
theorem Assembles.putBack {w : Workspace} {kept : Store Nat Nat}
    {store after : Store AnyRoster AnyJournal} (assembles : w.Assembles kept store) (name : String)
    (settings : after.settings = store.settings)
    (isOwn : after.registration.isOwn = store.registration.isOwn) :
    ∃ put, (w.putBack name kept after).stores.get? name = some put ∧
      (w.putBack name kept after).Assembles put after ∧
      ∀ last : Store AnyRoster AnyJournal, last.registration.isOwn = after.registration.isOwn →
        (w.putBack name kept after).putBack name put last = w.putBack name kept last := by
  have journals := Pool.get?_set_self assembles.journal after.journal
  obtain ⟨keptSettings, registration, journal, slots, params, tags⟩ := kept
  obtain ⟨same, -, -, -, -, ⟨runs, rfl, own⟩ | ⟨number, roster, rfl, shared, listed⟩⟩ := assembles
  · rw [own] at isOwn
    cases registered : after.registration with
    | shared roster =>
      rw [registered] at isOwn
      cases isOwn
    | own more =>
      simp only [Workspace.putBack, registered]
      refine ⟨_, Table.get?_insert_self _ _ _, ⟨settings.trans same, rfl, rfl, rfl, journals,
        Or.inl ⟨more, rfl, registered⟩⟩, fun last still => ?_⟩
      cases latest : last.registration with
      | shared roster =>
        rw [latest] at still
        cases still
      | own => simp only [Pool.set_set, Table.insert_insert_self]
  · rw [shared] at isOwn
    cases registered : after.registration with
    | own runs =>
      rw [registered] at isOwn
      cases isOwn
    | shared changed =>
      simp only [Workspace.putBack, registered]
      refine ⟨_, Table.get?_insert_self _ _ _, ⟨settings.trans same, rfl, rfl, rfl, journals,
        Or.inr ⟨number, changed, rfl, registered, Pool.get?_set_self listed changed⟩⟩,
        fun last still => ?_⟩
      cases latest : last.registration with
      | own runs =>
        rw [latest] at still
        cases still
      | shared => simp only [Pool.set_set, Table.insert_insert_self]

end Workspace

end RunMetrics

import Mathlib.Data.List.Pairwise
import RunMetrics.Table

/-!
Sorting by a comparison. Items among which no two are equal have one sorted list, in whatever order they
are met; so the keys of a table are those of its entries, collected in any order and sorted.
-/

set_option autoImplicit false

namespace RunMetrics

section Sorting

variable {α : Type} {cmp : α → α → Ordering} [Std.TransCmp cmp] {items sorted : List α}

/-- Items sorted by a comparison. -/
def sortedBy (cmp : α → α → Ordering) (items : List α) : List α :=
  items.mergeSort fun a b => (cmp a b).isLE

/-- Items in strict order are what sorting makes of them, however they come. -/
theorem sortedBy_eq (increasing : sorted.Pairwise fun a b => cmp a b = .lt)
    (perm : items.Perm sorted) : sortedBy cmp items = sorted := by
  have total (a b : α) : ((cmp a b).isLE || (cmp b a).isLE) = true := by
    rw [@Std.OrientedCmp.eq_swap α cmp _ b a]
    cases cmp a b <;> rfl
  have ordered : (sortedBy cmp items).Pairwise fun a b => (cmp a b).isLE = true :=
    List.pairwise_mergeSort (fun _ _ _ => Std.TransCmp.isLE_trans) total items
  have same : (sortedBy cmp items).Perm sorted := (List.mergeSort_perm items _).trans perm
  have apart : sorted.Pairwise fun a b => cmp a b ≠ .eq := by
    refine increasing.imp fun order => ?_
    rw [order]
    decide
  apply List.Perm.eq_of_pairwise _ ordered (increasing.imp fun order => by rw [order]; rfl) same
  intro a b first second below above
  by_contra differ
  have symmetric : Std.Symm fun a b => cmp a b ≠ .eq :=
    ⟨fun _ _ unequal equal => unequal (Std.OrientedCmp.eq_symm equal)⟩
  exact apart.forall (same.mem_iff.1 first) second differ
    (Std.OrientedCmp.isLE_antisymm below above)

/-- Lists in strict order are the same if they have the same members. -/
theorem eq_of_mem_iff {first second : List α} (left : first.Pairwise fun a b => cmp a b = .lt)
    (right : second.Pairwise fun a b => cmp a b = .lt) (same : ∀ a, a ∈ first ↔ a ∈ second) :
    first = second := by
  have distinct {items : List α} (increasing : items.Pairwise fun a b => cmp a b = .lt) :
      items.Nodup := by
    refine increasing.imp ?_
    rintro a _ order rfl
    rw [@Std.ReflCmp.compare_self α cmp] at order
    cases order
  have perm : first.Perm second :=
    (List.perm_ext_iff_of_nodup (distinct left) (distinct right)).2 same
  rw [← sortedBy_eq left (List.Perm.refl first)]
  exact sortedBy_eq right perm

end Sorting

/-- The keys of a table are what sorting makes of them, in whatever order the entries are met. -/
theorem Table.sortedBy_keys {κ α : Type} [Ord κ] [Std.TransOrd κ] (t : Table κ α)
    {listed : List (κ × α)} (perm : listed.Perm t.entries) :
    sortedBy compare (listed.map Prod.fst) = t.keys :=
  sortedBy_eq (List.pairwise_map.2 t.increasing) (perm.map Prod.fst)

end RunMetrics

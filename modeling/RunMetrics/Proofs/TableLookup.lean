import Mathlib.Data.List.Induction
import RunMetrics.Table

/-!
Look-ups in tables. Since the entries are in strict order, a key occurs in at most one of them: a
table is determined by its look-ups, and an entry that passes a test is found behind the test.
Entries that are taken out in order and put in again make the same table.
-/

set_option autoImplicit false

namespace RunMetrics.Table

variable {κ α : Type} [Ord κ]

/-- The table with every value changed. -/
def map {β : Type} (f : α → β) (t : Table κ α) : Table κ β :=
  ⟨t.entries.map fun e => (e.1, f e.2), List.pairwise_map.2 (t.increasing.imp fun order => order)⟩

theorem ext_entries {s t : Table κ α} (same : s.entries = t.entries) : s = t := by
  cases s
  cases t
  cases same
  rfl

theorem get?_map {β : Type} (f : α → β) (t : Table κ α) (k : κ) :
    (t.map f).get? k = (t.get? k).map f := by
  change find? k (t.entries.map fun e => (e.1, f e.2)) = (find? k t.entries).map f
  induction t.entries with
  | nil => rfl
  | cons head rest ih =>
    rw [List.map_cons, find?, find?]
    split
    · rfl
    · exact ih

theorem find?_eq_none_of_below {k : κ} {entries : List (κ × α)}
    (below : ∀ e ∈ entries, compare k e.1 = .lt) : find? k entries = none := by
  induction entries with
  | nil => rfl
  | cons head rest ih =>
    have first : compare k head.1 = .lt := below head List.mem_cons_self
    have apart : ¬ compare k head.1 = .eq := by
      rw [first]
      decide
    rw [find?, if_neg apart]
    exact ih fun e member => below e (List.mem_cons_of_mem _ member)

theorem find?_eq_none_of_lt_head [Std.TransOrd κ] {k : κ} {head : κ × α}
    {rest : List (κ × α)} (increasing : Increasing (head :: rest)) (order : compare k head.1 = .lt) :
    find? k (head :: rest) = none := by
  apply find?_eq_none_of_below
  intro e member
  rcases List.mem_cons.1 member with rfl | member
  · exact order
  · exact Std.TransCmp.lt_trans order ((List.pairwise_cons.1 increasing).1 e member)

theorem put_of_above [Std.TransOrd κ] {k : κ} (v : α) {entries : List (κ × α)}
    (above : ∀ e ∈ entries, compare e.1 k = .lt) : put k v entries = entries ++ [(k, v)] := by
  induction entries with
  | nil => rfl
  | cons head rest ih =>
    have greater : compare k head.1 = .gt :=
      Std.OrientedCmp.gt_of_lt (above head List.mem_cons_self)
    have others := ih fun e member => above e (List.mem_cons_of_mem _ member)
    simp only [put, greater, others, List.cons_append]

variable [Std.LawfulEqOrd κ]

theorem ne_of_compare_lt {k j : κ} (order : compare k j = .lt) : k ≠ j := by
  rintro rfl
  have same : compare k k = .eq := Std.ReflCmp.compare_self
  rw [same] at order
  cases order

theorem find?_cons_self (k : κ) (v : α) (rest : List (κ × α)) :
    find? k ((k, v) :: rest) = some v := by
  rw [find?, if_pos Std.ReflCmp.compare_self]

theorem find?_cons_of_ne {k j : κ} (v : α) (rest : List (κ × α)) (apart : j ≠ k) :
    find? j ((k, v) :: rest) = find? j rest := by
  rw [find?, if_neg fun same => apart (Std.LawfulEqCmp.eq_of_compare same)]

theorem mem_of_find?_eq_some {k : κ} {v : α} {entries : List (κ × α)}
    (found : find? k entries = some v) : (k, v) ∈ entries := by
  induction entries with
  | nil => cases found
  | cons head rest ih =>
    obtain ⟨k', v'⟩ := head
    by_cases same : k = k'
    · subst same
      rw [find?_cons_self] at found
      cases found
      exact List.mem_cons_self
    · rw [find?_cons_of_ne v' rest same] at found
      exact List.mem_cons_of_mem _ (ih found)

theorem find?_eq_some_of_mem {k : κ} {v : α} {entries : List (κ × α)}
    (increasing : Increasing entries) (member : (k, v) ∈ entries) :
    find? k entries = some v := by
  induction entries with
  | nil => cases member
  | cons head rest ih =>
    obtain ⟨k', v'⟩ := head
    obtain ⟨above, tail⟩ := List.pairwise_cons.1 increasing
    rcases List.mem_cons.1 member with same | member
    · cases same
      exact find?_cons_self k v rest
    · have greater : compare k' k = .lt := above (k, v) member
      have apart : k ≠ k' := by
        rintro rfl
        have same : compare k k = .eq := Std.ReflCmp.compare_self
        rw [same] at greater
        cases greater
      rw [find?_cons_of_ne v' rest apart]
      exact ih tail member

theorem find?_filter {entries : List (κ × α)} (increasing : Increasing entries)
    (keep : κ → α → Bool) (k : κ) :
    find? k (entries.filter fun e => keep e.1 e.2) = (find? k entries).filter (keep k) := by
  induction entries with
  | nil => rfl
  | cons head rest ih =>
    obtain ⟨k', v⟩ := head
    obtain ⟨above, tail⟩ := List.pairwise_cons.1 increasing
    by_cases same : k = k'
    · subst same
      rw [find?_cons_self, List.filter_cons]
      cases kept : keep k v with
      | true => simp only [↓reduceIte, find?_cons_self, Option.filter_some, kept]
      | false =>
        have absent : find? k rest = none := find?_eq_none_of_below above
        rw [if_neg (by simp), ih tail, absent]
        simp only [Option.filter_some, kept, Option.filter_none, Bool.false_eq_true, ↓reduceIte]
    · rw [find?_cons_of_ne v rest same, List.filter_cons]
      split
      · rw [find?_cons_of_ne v _ same]
        exact ih tail
      · exact ih tail

theorem mem_entries_iff (t : Table κ α) (k : κ) (v : α) :
    (k, v) ∈ t.entries ↔ t.get? k = some v :=
  ⟨find?_eq_some_of_mem t.increasing, mem_of_find?_eq_some⟩

theorem mem_keys_iff (t : Table κ α) (k : κ) : k ∈ t.keys ↔ t.get? k ≠ none := by
  rw [keys, List.mem_map]
  constructor
  · rintro ⟨⟨_, v⟩, member, rfl⟩
    rw [(mem_entries_iff t _ v).1 member]
    nofun
  · intro present
    obtain ⟨v, found⟩ := Option.ne_none_iff_exists'.1 present
    exact ⟨(k, v), (mem_entries_iff t k v).2 found, rfl⟩

theorem mem_values_iff (t : Table κ α) (v : α) : v ∈ t.values ↔ ∃ k, t.get? k = some v := by
  simp [values, ← mem_entries_iff]

theorem nodup_keys (t : Table κ α) : t.keys.Nodup :=
  List.pairwise_map.2 (t.increasing.imp fun order => ne_of_compare_lt order)

theorem get?_filter (t : Table κ α) (keep : κ → α → Bool) (k : κ) :
    (t.filter keep).get? k = (t.get? k).filter (keep k) :=
  find?_filter t.increasing keep k

@[simp] theorem get?_erase_self (t : Table κ α) (k : κ) : (t.erase k).get? k = none := by
  rw [erase, get?_filter]
  cases t.get? k with
  | none => rfl
  | some v => simp only [Option.filter_some, Std.ReflCmp.compare_self, bne_self_eq_false,
      Bool.false_eq_true, ↓reduceIte]

theorem get?_erase_of_ne (t : Table κ α) {k j : κ} (apart : j ≠ k) :
    (t.erase k).get? j = t.get? j := by
  have differ : (compare k j != .eq) = true :=
    bne_iff_ne.2 fun same => apart (Std.LawfulEqCmp.eq_of_compare same).symm
  rw [erase, get?_filter]
  cases t.get? j with
  | none => rfl
  | some v => simp only [Option.filter_some, differ, ↓reduceIte]

variable [Std.TransOrd κ]

/-- Entries in strict order are a normal form of their look-ups. -/
theorem eq_of_find?_eq {first second : List (κ × α)} (left : Increasing first)
    (right : Increasing second) (same : ∀ k, find? k first = find? k second) :
    first = second := by
  induction first generalizing second with
  | nil =>
    cases second with
    | nil => rfl
    | cons head rest =>
      have impossible := same head.1
      rw [find?_cons_self] at impossible
      cases impossible
  | cons head rest ih =>
    obtain ⟨k, v⟩ := head
    obtain ⟨above, tail⟩ := List.pairwise_cons.1 left
    cases second with
    | nil =>
      have impossible := same k
      rw [find?_cons_self] at impossible
      cases impossible
    | cons head' rest' =>
      obtain ⟨k', v'⟩ := head'
      obtain ⟨above', tail'⟩ := List.pairwise_cons.1 right
      -- A smaller first key would be found on its own side only.
      have keys : k = k' := by
        have here := same k
        have there := same k'
        rw [find?_cons_self] at here there
        cases order : compare k k' with
        | eq => exact Std.LawfulEqCmp.eq_of_compare order
        | lt =>
          rw [find?_eq_none_of_lt_head right order] at here
          cases here
        | gt =>
          rw [find?_eq_none_of_lt_head left (Std.OrientedCmp.gt_iff_lt.1 order)] at there
          cases there
      subst keys
      have values := same k
      rw [find?_cons_self, find?_cons_self] at values
      cases values
      have rests : rest = rest' := by
        refine ih tail tail' fun j => ?_
        by_cases here : j = k
        · subst here
          rw [find?_eq_none_of_below above, find?_eq_none_of_below above']
        · simpa only [find?_cons_of_ne v _ here] using same j
      rw [rests]

theorem ext_get? {s t : Table κ α} (same : ∀ k, s.get? k = t.get? k) : s = t := by
  exact ext_entries (eq_of_find?_eq s.increasing t.increasing same)

@[simp] theorem get?_insert_self (t : Table κ α) (k : κ) (v : α) :
    (t.insert k v).get? k = some v := by
  rw [get?_insert, if_pos Std.ReflCmp.compare_self]

theorem get?_insert_of_ne (t : Table κ α) {k j : κ} (v : α) (apart : j ≠ k) :
    (t.insert k v).get? j = t.get? j := by
  rw [get?_insert, if_neg fun same => apart (Std.LawfulEqCmp.eq_of_compare same)]

theorem insert_insert_self (t : Table κ α) (k : κ) (v w : α) :
    (t.insert k v).insert k w = t.insert k w := by
  apply ext_get?
  intro j
  by_cases same : j = k
  · subst same
    rw [get?_insert_self, get?_insert_self]
  · rw [get?_insert_of_ne _ w same, get?_insert_of_ne _ v same, get?_insert_of_ne _ w same]

theorem insert_of_get?_eq_some {t : Table κ α} {k : κ} {v : α} (found : t.get? k = some v) :
    t.insert k v = t := by
  apply ext_get?
  intro j
  by_cases same : j = k
  · subst same
    rw [get?_insert_self, found]
  · rw [get?_insert_of_ne t v same]

theorem erase_insert_self (t : Table κ α) (k : κ) (v : α) : (t.insert k v).erase k = t.erase k := by
  apply ext_get?
  intro j
  by_cases same : j = k
  · subst same
    rw [get?_erase_self, get?_erase_self]
  · rw [get?_erase_of_ne _ same, get?_erase_of_ne _ same, get?_insert_of_ne t v same]

theorem erase_of_get?_eq_none {t : Table κ α} {k : κ} (missing : t.get? k = none) : t.erase k = t := by
  apply ext_get?
  intro j
  by_cases same : j = k
  · subst same
    rw [get?_erase_self, missing]
  · rw [get?_erase_of_ne t same]

/-- Values at different keys may be put in either order. -/
theorem insert_comm (t : Table κ α) {k j : κ} (v w : α) (apart : k ≠ j) :
    (t.insert k v).insert j w = (t.insert j w).insert k v := by
  apply ext_get?
  intro i
  by_cases first : i = k
  · subst first
    rw [get?_insert_of_ne _ w apart, get?_insert_self, get?_insert_self]
  · rw [get?_insert_of_ne _ v first]
    by_cases second : i = j
    · subst second
      rw [get?_insert_self, get?_insert_self]
    · rw [get?_insert_of_ne _ w second, get?_insert_of_ne _ v first, get?_insert_of_ne _ w second]

/-! ### Filling -/

theorem insertAll_concat (t : Table κ α) (pairs : List (κ × α)) (pair : κ × α) :
    t.insertAll (pairs ++ [pair]) = (t.insertAll pairs).insert pair.1 pair.2 := by
  simp only [insertAll, List.foldl_append, List.foldl_cons, List.foldl_nil]

/-- Entries in order come back when they are put in one after the other. -/
theorem insertAll_entries (t : Table κ α) : (empty : Table κ α).insertAll t.entries = t := by
  have filled : ∀ entries : List (κ × α), Increasing entries →
      ((empty : Table κ α).insertAll entries).entries = entries := by
    intro entries
    induction entries using List.reverseRecOn with
    | nil => exact fun _ => rfl
    | append_singleton earlier e ih =>
      intro increasing
      obtain ⟨before, -, above⟩ := List.pairwise_append.1 increasing
      rw [insertAll_concat]
      change put e.1 e.2 (insertAll empty earlier).entries = _
      rw [ih before]
      exact put_of_above e.2 fun d member => above d member e List.mem_cons_self
  exact ext_entries (filled t.entries t.increasing)

/-- Entries make the same table in whatever order they are put in. -/
theorem insertAll_of_perm {t : Table κ α} {pairs : List (κ × α)} (perm : pairs.Perm t.entries) :
    (empty : Table κ α).insertAll pairs = t := by
  have same : (empty : Table κ α).insertAll pairs = empty.insertAll t.entries := by
    apply perm.foldl_eq'
    intro first left second right filled
    by_cases keys : first.1 = second.1
    · have here := (mem_entries_iff t first.1 first.2).1 (perm.mem_iff.1 left)
      have there := (mem_entries_iff t second.1 second.2).1 (perm.mem_iff.1 right)
      rw [keys, there] at here
      have equal : first = second := Prod.ext keys (Option.some.inj here).symm
      rw [equal]
    · exact insert_comm filled first.2 second.2 keys
  rw [same, insertAll_entries]

theorem isEmpty_insert (t : Table κ α) (k : κ) (v : α) : (t.insert k v).isEmpty = false := by
  have present : (t.insert k v).get? k = some v := get?_insert_self t k v
  rw [isEmpty, Bool.eq_false_iff]
  intro nothing
  rw [get?, List.isEmpty_iff.1 nothing] at present
  cases present

theorem isEmpty_insertAll (t : Table κ α) (pairs : List (κ × α)) :
    (t.insertAll pairs).isEmpty = (t.isEmpty && pairs.isEmpty) := by
  induction pairs using List.reverseRecOn with
  | nil => simp [insertAll]
  | append_singleton earlier pair ih =>
    rw [insertAll_concat, isEmpty_insert]
    simp

end RunMetrics.Table

/-!
Tables: finite maps whose entries are kept in strictly increasing order of their keys. The order
makes the list of entries a normal form: two tables with the same values at every key are equal.
Each operation is described by what it does to `get?`.
-/

set_option autoImplicit false

namespace RunMetrics

/-- Entries of which each key is below those after it. -/
def Increasing {κ α : Type} [Ord κ] (entries : List (κ × α)) : Prop :=
  entries.Pairwise fun a b => compare a.1 b.1 = .lt

/-- A finite map with its entries in order. -/
structure Table (κ α : Type) [Ord κ] where
  entries : List (κ × α)
  increasing : Increasing entries

namespace Table

variable {κ α : Type} [Ord κ]

instance [DecidableEq κ] [DecidableEq α] : DecidableEq (Table κ α) := fun s t =>
  if h : s.entries = t.entries then
    isTrue (by cases s; cases t; cases h; rfl)
  else isFalse fun e => h (congrArg entries e)

def empty : Table κ α := ⟨[], .nil⟩

instance : Inhabited (Table κ α) := ⟨empty⟩

def isEmpty (t : Table κ α) : Bool := t.entries.isEmpty

def size (t : Table κ α) : Nat := t.entries.length

def keys (t : Table κ α) : List κ := t.entries.map Prod.fst

def values (t : Table κ α) : List α := t.entries.map Prod.snd

/-- The value at a key among entries in any order. -/
def find? (k : κ) : List (κ × α) → Option α
  | [] => none
  | (k', v) :: rest => if compare k k' = .eq then some v else find? k rest

def get? (t : Table κ α) (k : κ) : Option α := find? k t.entries

def contains (t : Table κ α) (k : κ) : Bool := (t.get? k).isSome

/-- Entries with a value put at its place, over one of the same key. -/
def put (k : κ) (v : α) : List (κ × α) → List (κ × α)
  | [] => [(k, v)]
  | (k', v') :: rest =>
    match compare k k' with
    | .lt => (k, v) :: (k', v') :: rest
    | .eq => (k, v) :: rest
    | .gt => (k', v') :: put k v rest

theorem mem_put {k : κ} {v : α} {entries : List (κ × α)} {e : κ × α} (h : e ∈ put k v entries) :
    e = (k, v) ∨ e ∈ entries := by
  induction entries with
  | nil => simpa [put] using h
  | cons head rest ih =>
    obtain ⟨k', v'⟩ := head
    rw [put] at h
    split at h
    · simpa using h
    · rcases List.mem_cons.1 h with rfl | h
      · exact Or.inl rfl
      · exact Or.inr (List.mem_cons_of_mem _ h)
    · rcases List.mem_cons.1 h with rfl | h
      · exact Or.inr List.mem_cons_self
      · exact (ih h).imp id (List.mem_cons_of_mem _)

theorem increasing_put [Std.TransOrd κ] [Std.LawfulEqOrd κ] (k : κ) (v : α)
    {entries : List (κ × α)} (h : Increasing entries) : Increasing (put k v entries) := by
  induction entries with
  | nil => exact List.pairwise_singleton _ _
  | cons head rest ih =>
    obtain ⟨k', v'⟩ := head
    have above := (List.pairwise_cons.1 h).1
    have tail := (List.pairwise_cons.1 h).2
    rw [put]
    split
    · next below =>
      refine List.pairwise_cons.2 ⟨fun e member => ?_, h⟩
      rcases List.mem_cons.1 member with rfl | member
      · exact below
      · exact Std.TransCmp.lt_trans below (above e member)
    · next same =>
      have equal : k = k' := Std.LawfulEqCmp.eq_of_compare same
      subst equal
      exact List.pairwise_cons.2 ⟨above, tail⟩
    · next exceeds =>
      refine List.pairwise_cons.2 ⟨fun e member => ?_, ih tail⟩
      rcases mem_put member with rfl | member
      · exact Std.OrientedCmp.gt_iff_lt.1 exceeds
      · exact above e member

/-- The table with a value at a key, instead of one that was there. -/
def insert [Std.TransOrd κ] [Std.LawfulEqOrd κ] (t : Table κ α) (k : κ) (v : α) : Table κ α :=
  ⟨put k v t.entries, increasing_put k v t.increasing⟩

/-- The entries that pass a test. -/
def filter (t : Table κ α) (keep : κ → α → Bool) : Table κ α :=
  ⟨t.entries.filter fun e => keep e.1 e.2, List.Pairwise.filter _ t.increasing⟩

/-- The table without a key. -/
def erase (t : Table κ α) (k : κ) : Table κ α := t.filter fun k' _ => compare k k' != .eq

/-- The table of pairs in order of writing: of equal keys the last one stays. -/
def insertAll [Std.TransOrd κ] [Std.LawfulEqOrd κ] (t : Table κ α) (pairs : List (κ × α)) :
    Table κ α := pairs.foldl (fun t pair => t.insert pair.1 pair.2) t

theorem find?_put [Std.TransOrd κ] [Std.LawfulEqOrd κ] (k j : κ) (v : α) (entries : List (κ × α)) :
    find? j (put k v entries) = if compare j k = .eq then some v else find? j entries := by
  induction entries with
  | nil => rfl
  | cons head rest ih =>
    obtain ⟨k', v'⟩ := head
    rw [put]
    split
    · rfl
    · next same =>
      have equal : k = k' := Std.LawfulEqCmp.eq_of_compare same
      subst equal
      simp only [find?]
      split <;> rfl
    · next exceeds =>
      simp only [find?, ih]
      by_cases here : compare j k' = .eq
      · have equal : j = k' := Std.LawfulEqCmp.eq_of_compare here
        subst equal
        have apart : compare j k ≠ .eq := by
          rw [Std.OrientedCmp.gt_iff_lt.1 exceeds]
          decide
        simp [apart]
      · simp [here]

@[simp] theorem get?_empty (k : κ) : (empty : Table κ α).get? k = none := rfl

/-- A value put in is found at its key and changes nothing elsewhere. -/
theorem get?_insert [Std.TransOrd κ] [Std.LawfulEqOrd κ] (t : Table κ α) (k j : κ) (v : α) :
    (t.insert k v).get? j = if compare j k = .eq then some v else t.get? j :=
  find?_put k j v t.entries

end Table

/-- One metric of one run. -/
structure Series where
  run : String
  key : String
deriving DecidableEq

/-- By run, then by key. -/
instance : Ord Series := ⟨compareLex (compareOn Series.run) (compareOn Series.key)⟩

instance : Std.TransOrd Series :=
  inferInstanceAs (Std.TransCmp (compareLex (compareOn Series.run) (compareOn Series.key)))

instance : Std.LawfulEqOrd Series where
  compare_self {a} := Ordering.then_eq_eq.2 ⟨Std.ReflCmp.compare_self, Std.ReflCmp.compare_self⟩
  eq_of_compare {a b} h := by
    have both : compare a.run b.run = .eq ∧ compare a.key b.key = .eq :=
      Ordering.then_eq_eq.1 h
    cases a
    cases b
    simp only [Std.LawfulEqCmp.compare_eq_iff_eq] at both
    simp [both.1, both.2]

end RunMetrics

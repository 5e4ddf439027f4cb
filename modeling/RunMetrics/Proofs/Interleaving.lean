import Mathlib.Data.List.Basic

/-!
Interleavings of sequences that stand in lanes of their own. Of two interleavings, the first element of
one can be moved to the front of the other past elements of other lanes alone. So whatever does not
change when neighbours of different lanes are swapped is the same for both.
-/

set_option autoImplicit false

namespace RunMetrics

/-- The items are an interleaving of the scripts of all lanes, each in its own order. -/
structure Interleaves {α ι : Type} [DecidableEq ι] (lane : α → ι) (script : ι → List α)
    (items : List α) : Prop where
  order : ∀ l, items.filter (fun item => lane item = l) = script l

namespace Interleaves

variable {α β ι : Type} [DecidableEq ι] {lane : α → ι} {script : ι → List α}
  {first second : List α}

theorem self (lane : α → ι) (items : List α) :
    Interleaves lane (fun l => items.filter fun item => lane item = l) items := ⟨fun _ => rfl⟩

/-- Neighbours of different lanes may change places. -/
theorem swap (before : List α) {after : List α} {item other : α}
    (inter : Interleaves lane script (before ++ item :: other :: after))
    (apart : lane item ≠ lane other) :
    Interleaves lane script (before ++ other :: item :: after) := by
  refine ⟨fun l => ?_⟩
  rw [← inter.order l, List.filter_append, List.filter_append]
  congr 1
  by_cases here : lane item = l
  · have there : lane other ≠ l := fun same => apart (here.trans same.symm)
    simp only [List.filter_cons, here, there, decide_true, decide_false, Bool.false_eq_true, ↓reduceIte]
  · simp only [List.filter_cons, here, decide_false, Bool.false_eq_true, ↓reduceIte]

theorem mem_script {items : List α} (inter : Interleaves lane script items) {item : α}
    (member : item ∈ items) : item ∈ script (lane item) := by
  rw [← inter.order]
  exact List.mem_filter.2 ⟨member, decide_eq_true rfl⟩

/-- The first element of one interleaving has only other lanes in front of it in the other one. -/
theorem exists_split {item : α} {rest : List α} (left : Interleaves lane script (item :: rest))
    (right : Interleaves lane script second) :
    ∃ before after, second = before ++ item :: after ∧ (∀ other ∈ before, lane other ≠ lane item) ∧
      ∃ shorter, Interleaves lane shorter rest ∧ Interleaves lane shorter (before ++ after) := by
  have own : second.filter (fun other => lane other = lane item) =
      item :: rest.filter fun other => lane other = lane item := by
    rw [right.order, ← left.order, List.filter_cons_of_pos (by simp)]
  obtain ⟨before, after, rfl, foreign, here, others⟩ := List.filter_eq_cons_iff.1 own
  have apart : ∀ other ∈ before, lane other ≠ lane item := by
    simpa using foreign
  refine ⟨before, after, rfl, apart, fun l => rest.filter fun other => lane other = l,
    ⟨fun _ => rfl⟩, ⟨fun l => ?_⟩⟩
  by_cases same : lane item = l
  · subst same
    rw [List.filter_append, others, List.filter_eq_nil_iff.2 (by simpa using apart), List.nil_append]
  · have both := (left.order l).trans (right.order l).symm
    rw [List.filter_cons_of_neg (by simpa using same), List.filter_append,
      List.filter_cons_of_neg (by simpa using same)] at both
    rw [List.filter_append, ← both]

theorem perm (left : Interleaves lane script first) (right : Interleaves lane script second) :
    first.Perm second := by
  induction first generalizing script second with
  | nil =>
    cases second with
    | nil => exact .refl _
    | cons item rest =>
      have absent := right.mem_script List.mem_cons_self
      rw [← left.order] at absent
      cases absent
  | cons item rest ih =>
    obtain ⟨before, after, rfl, -, shorter, mine, others⟩ := left.exists_split right
    exact ((ih mine others).cons item).trans List.perm_middle.symm

/-- Steps that commute past one that starts a list may all be taken after it. -/
theorem foldl_past (step : β → α → β) {before : List α} {item : α}
    (commute : ∀ other ∈ before, ∀ state,
      step (step state other) item = step (step state item) other) (state : β) :
    step (before.foldl step state) item = before.foldl step (step state item) := by
  induction before generalizing state with
  | nil => rfl
  | cons other rest ih =>
    rw [List.foldl_cons, List.foldl_cons, ← commute other List.mem_cons_self]
    exact ih (fun another member => commute another (List.mem_cons_of_mem _ member)) _

/-- Steps of different lanes commute, so both interleavings lead to the same state. -/
theorem foldl_eq (left : Interleaves lane script first) (right : Interleaves lane script second)
    (step : β → α → β)
    (commute : ∀ a b state, lane a ≠ lane b → step (step state a) b = step (step state b) a)
    (state : β) : first.foldl step state = second.foldl step state := by
  induction first generalizing script second state with
  | nil =>
    have nothing : second = [] := (left.perm right).symm.eq_nil
    rw [nothing]
  | cons item rest ih =>
    obtain ⟨before, after, rfl, apart, shorter, mine, others⟩ := left.exists_split right
    have moved := foldl_past step (fun other member state =>
      commute other item state (apart other member)) state
    rw [List.foldl_cons, ih mine others, List.foldl_append, List.foldl_append, List.foldl_cons, moved]

end Interleaves

end RunMetrics

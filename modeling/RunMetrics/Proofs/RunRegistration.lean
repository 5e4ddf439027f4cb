import RunMetrics.Proofs.TableLookup
import RunMetrics.Store.Basic

/-!
Which runs a store knows. Its own set of runs only grows; a roster that is kept elsewhere is asked and
never written to by a replay. A steady roster answers the same however often it has been asked.
-/

set_option autoImplicit false

namespace RunMetrics

namespace RunSet

theorem contains_insert (s : RunSet) (run other : String) :
    (s.insert run).contains other = true ↔ other = run ∨ s.contains other = true := by
  rw [insert, contains, contains, Table.contains, Table.contains]
  by_cases same : other = run
  · subst same
    rw [Table.get?_insert_self]
    simp
  · rw [Table.get?_insert_of_ne _ _ same]
    simp only [same, false_or]

theorem contains_register (s : RunSet) (run other : String) :
    (s.register run).2.contains other = true ↔ other = run ∨ s.contains other = true := by
  unfold register
  split
  · rename_i known
    constructor
    · exact Or.inr
    · rintro (rfl | there)
      · exact known
      · exact there
  · exact contains_insert s run other

/-- A set of runs is determined by its answers. -/
theorem ext_contains {s t : RunSet} (same : ∀ run, s.contains run = t.contains run) : s = t := by
  have runs : s.runs = t.runs := by
    apply Table.ext_get?
    intro run
    have here := same run
    rw [contains, contains, Table.contains, Table.contains] at here
    cases first : s.runs.get? run <;> cases second : t.runs.get? run <;> simp_all
  cases s
  cases t
  cases runs
  rfl

end RunSet

namespace Registration

variable {ρ : Type} [Roster ρ]

/-- Whether a history of the run may be replayed. -/
def admits (r : Registration ρ) (run : String) : Bool := r.isOwn || r.contains run

/-- However often it is asked, and for whatever, the run stays known. -/
def Vouches (r : Registration ρ) (run : String) : Prop :=
  ∀ asked : List String, (asked.foldl Registration.asked r).contains run = true

theorem Vouches.contains {r : Registration ρ} {run : String} (vouches : r.Vouches run) :
    r.contains run = true := vouches []

theorem Vouches.asked {r : Registration ρ} {run : String} (vouches : r.Vouches run) (other : String) :
    (r.asked other).Vouches run := fun more => vouches (other :: more)

/-- One's own runs are not changed by questions. -/
theorem foldl_asked_own (kept : RunSet) (runs : List String) :
    runs.foldl asked (.own kept : Registration ρ) = .own kept := by
  induction runs with
  | nil => rfl
  | cons run rest ih => exact ih

theorem vouches_own_iff (kept : RunSet) (run : String) :
    (.own kept : Registration ρ).Vouches run ↔ kept.contains run = true := by
  unfold Vouches
  simp only [foldl_asked_own]
  exact ⟨fun known => known [], fun known _ => known⟩

theorem isOwn_foldl_asked (r : Registration ρ) (runs : List String) :
    (runs.foldl asked r).isOwn = r.isOwn := by
  induction runs generalizing r with
  | nil => rfl
  | cons run rest ih =>
    rw [List.foldl_cons, ih]
    cases r <;> rfl

/-- The same runs are known as before and, where registration is the store's own, the given ones. -/
structure Enrolled (before after : Registration ρ) (runs : List String) : Prop where
  isOwn : after.isOwn = before.isOwn
  contains : ∀ run, after.contains run = true ↔
    before.contains run = true ∨ before.isOwn = true ∧ run ∈ runs

theorem Enrolled.refl (r : Registration ρ) : Enrolled r r [] := ⟨rfl, fun run => by simp⟩

theorem Enrolled.trans {first second third : Registration ρ} {runs more : List String}
    (left : Enrolled first second runs) (right : Enrolled second third more) :
    Enrolled first third (runs ++ more) := by
  refine ⟨right.isOwn.trans left.isOwn, fun run => ?_⟩
  rw [right.contains, left.contains, left.isOwn, List.mem_append, or_assoc, and_or_left]

theorem enrolled_enrol (r : Registration ρ) (run : String) : Enrolled r (r.enrol run) [run] := by
  cases r with
  | own runs =>
    refine ⟨rfl, fun other => (RunSet.contains_register runs run other).trans ?_⟩
    rw [or_comm]
    simp [isOwn, Registration.contains]
  | shared roster => exact ⟨rfl, fun other => by simp [enrol, isOwn]⟩

theorem Enrolled.admits {before after : Registration ρ} {runs : List String}
    (enrolled : Enrolled before after runs) (run : String) :
    after.admits run = before.admits run := by
  rw [Registration.admits, Registration.admits, enrolled.isOwn]
  cases own : before.isOwn with
  | true => rfl
  | false =>
    rw [Bool.false_or, Bool.false_or, Bool.eq_iff_iff, enrolled.contains, own]
    simp

/-- Runs in another order, or more than once, make no difference. -/
theorem Enrolled.contains_eq {before first second : Registration ρ} {runs more : List String}
    (left : Enrolled before first runs) (right : Enrolled before second more)
    (same : ∀ run, run ∈ runs ↔ run ∈ more) (run : String) :
    first.contains run = second.contains run := by
  rw [Bool.eq_iff_iff, left.contains, right.contains, same]

theorem eq_own_of_contains_eq {r s : Registration ρ} (kind : s.isOwn = r.isOwn)
    (same : ∀ run, s.contains run = r.contains run) {runs : RunSet} (here : r = .own runs) :
    s = .own runs := by
  subst here
  cases s with
  | own others => exact congrArg own (RunSet.ext_contains same)
  | shared roster => cases kind

variable [Roster.Steady ρ]

theorem contains_asked (r : Registration ρ) (run other : String) :
    (r.asked run).contains other = r.contains other := by
  cases r with
  | own runs => rfl
  | shared roster => exact Roster.Steady.contains_asked roster run other

theorem contains_foldl_asked (r : Registration ρ) (runs : List String) (other : String) :
    (runs.foldl asked r).contains other = r.contains other := by
  induction runs generalizing r with
  | nil => rfl
  | cons run rest ih => exact (ih (r.asked run)).trans (contains_asked r run other)

theorem vouches_iff (r : Registration ρ) (run : String) :
    r.Vouches run ↔ r.contains run = true := by
  unfold Vouches
  simp only [contains_foldl_asked]
  exact ⟨fun known => known [], fun known _ => known⟩

theorem enrolled_foldl_asked (r : Registration ρ) (runs : List String) :
    Enrolled r (runs.foldl asked r) [] :=
  ⟨isOwn_foldl_asked r runs, fun run => by simp [contains_foldl_asked]⟩

end Registration

end RunMetrics

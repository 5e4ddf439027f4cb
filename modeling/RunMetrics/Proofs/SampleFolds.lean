import Mathlib.Data.List.Induction
import RunMetrics.Proofs.RunningSummary

/-!
The three projections as folds. Each keeps one sample, in whose place a newcomer may step: the latest
gives way to any sample that is not earlier, an extreme only to a value strictly beyond its own. What a
fold keeps is one of the samples it has met, and to meet the same samples again changes nothing.
-/

set_option autoImplicit false

namespace RunMetrics

/-! ### The latest sample -/

namespace Sample

instance : Std.TransCmp timeOrder :=
  inferInstanceAs (Std.TransCmp (compareLex (compareOn Sample.timestamp) (compareOn Sample.step)))

theorem replaces_iff (candidate incumbent : Sample) :
    candidate.replaces incumbent = true ↔ (candidate.timeOrder incumbent).isGE = true := by
  unfold replaces
  cases candidate.timeOrder incumbent <;> decide

theorem replaces_self (s : Sample) : s.replaces s = true := by
  have same : s.timeOrder s = .eq := Std.ReflCmp.compare_self
  simp [replaces, same]

theorem replaces_trans {a b c : Sample} (first : a.replaces b = true) (second : b.replaces c = true) :
    a.replaces c = true := by
  rw [replaces_iff] at *
  exact Std.TransCmp.isGE_trans first second

/-- Of two samples at least one may follow the other. -/
theorem replaces_of_not {candidate incumbent : Sample} (earlier : candidate.replaces incumbent = false) :
    incumbent.replaces candidate = true := by
  have less : candidate.timeOrder incumbent = .lt := by
    simpa [replaces] using earlier
  rw [replaces_iff, Std.OrientedCmp.gt_of_lt less]
  rfl

/-- The later of the sample kept and a newcomer. -/
def later (best : Option Sample) (s : Sample) : Option Sample :=
  match best with
  | some incumbent => if s.replaces incumbent then some s else some incumbent
  | none => some s

theorem latest?_eq_foldl (samples : List Sample) : latest? samples = samples.foldl later none := rfl

theorem foldl_later_some (incumbent : Sample) (samples : List Sample) :
    ∃ last, samples.foldl later (some incumbent) = some last := by
  induction samples generalizing incumbent with
  | nil => exact ⟨incumbent, rfl⟩
  | cons s rest ih =>
    rw [List.foldl_cons, later]
    split
    · exact ih s
    · exact ih incumbent

/-- The sample kept is not earlier than any that was met. -/
theorem exists_foldl_later (best : Option Sample) {samples : List Sample} {s : Sample}
    (met : s ∈ samples) :
    ∃ last, samples.foldl later best = some last ∧ last.replaces s = true := by
  induction samples using List.reverseRecOn with
  | nil => cases met
  | append_singleton earlier t ih =>
    rw [List.foldl_append, List.foldl_cons, List.foldl_nil]
    rcases List.mem_append.1 met with before | last
    · obtain ⟨kept, found, follows⟩ := ih before
      rw [found, later]
      split
      · rename_i replaced
        exact ⟨t, rfl, replaces_trans replaced follows⟩
      · exact ⟨kept, rfl, follows⟩
    · have same : s = t := List.mem_singleton.1 last
      subst same
      unfold later
      split
      · rename_i incumbent _
        cases replaced : s.replaces incumbent with
        | true => exact ⟨s, rfl, replaces_self s⟩
        | false => exact ⟨incumbent, rfl, replaces_of_not replaced⟩
      · exact ⟨s, rfl, replaces_self s⟩

/-- Samples that are not later than a sample leave none that is. -/
theorem replaces_of_foldl_later {bound last : Sample} {samples : List Sample} {best : Option Sample}
    (start : ∀ incumbent ∈ best, bound.replaces incumbent = true)
    (met : ∀ s ∈ samples, bound.replaces s = true)
    (kept : samples.foldl later best = some last) : bound.replaces last = true := by
  induction samples generalizing best with
  | nil => exact start last kept
  | cons s rest ih =>
    refine ih ?_ (fun t member => met t (List.mem_cons_of_mem _ member)) kept
    intro incumbent given
    have here := met s List.mem_cons_self
    unfold later at given
    split at given
    · split at given
      · exact Option.some.inj given ▸ here
      · exact Option.some.inj given ▸ start _ rfl
    · exact Option.some.inj given ▸ here

/-- Of samples at one time the last is kept, the same one when all are met again in their order. -/
theorem foldl_later_again (best : Option Sample) (samples : List Sample) :
    samples.foldl later (samples.foldl later best) = samples.foldl later best := by
  induction samples using List.reverseRecOn with
  | nil => rfl
  | append_singleton earlier s ih =>
    -- A sample that steps in at the end is behind all earlier ones, so it steps in at the end again.
    have returns (behind : ∀ t ∈ earlier, s.replaces t = true) :
        later (earlier.foldl later (some s)) s = some s := by
      obtain ⟨last, kept⟩ := foldl_later_some s earlier
      have start : ∀ incumbent ∈ some s, s.replaces incumbent = true := by
        intro incumbent given
        cases given
        exact replaces_self s
      rw [kept, later, if_pos (replaces_of_foldl_later start behind kept)]
    simp only [List.foldl_append, List.foldl_cons, List.foldl_nil]
    cases kept : earlier.foldl later best with
    | none =>
      apply returns
      intro t member
      obtain ⟨last, found, -⟩ := exists_foldl_later best member
      rw [kept] at found
      cases found
    | some incumbent =>
      rw [kept] at ih
      cases replaced : s.replaces incumbent with
      | true =>
        have steps : later (some incumbent) s = some s := if_pos replaced
        rw [steps]
        apply returns
        intro t member
        obtain ⟨last, found, follows⟩ := exists_foldl_later best member
        rw [kept] at found
        cases found
        exact replaces_trans replaced follows
      | false =>
        have stays : later (some incumbent) s = some incumbent := by
          simp only [later, replaced, Bool.false_eq_true, ↓reduceIte]
        rw [stays, ih, stays]

theorem mem_of_foldl_later {best : Option Sample} {samples : List Sample} {s : Sample}
    (kept : samples.foldl later best = some s) : best = some s ∨ s ∈ samples := by
  induction samples generalizing best with
  | nil => exact Or.inl kept
  | cons t rest ih =>
    rcases ih kept with first | later
    · unfold Sample.later at first
      split at first
      · split at first
        · cases first
          exact Or.inr List.mem_cons_self
        · exact Or.inl first
      · cases first
        exact Or.inr List.mem_cons_self
    · exact Or.inr (List.mem_cons_of_mem _ later)

/-! ### The extremes -/

/-- Whether a sample steps in for the one kept: its value is beyond that one's, and not NaN. -/
def outdoes (beats : Binary64 → Binary64 → Bool) (s : Sample) (best : Option Sample) : Bool :=
  !s.value.isNaN && (best.map Sample.value).all (beats s.value)

/-- The sample farther out of the one kept and a newcomer. -/
def farther (beats : Binary64 → Binary64 → Bool) (best : Option Sample) (s : Sample) :
    Option Sample := if s.outdoes beats best then some s else best

theorem lowest?_eq_foldl (samples : List Sample) :
    lowest? samples = samples.foldl (farther Binary64.less) none := rfl

theorem highest?_eq_foldl (samples : List Sample) :
    highest? samples = samples.foldl (farther fun x y => y.less x) none := rfl

variable {beats : Binary64 → Binary64 → Bool}

theorem isNaN_of_outdoes {s : Sample} {best : Option Sample} (beyond : s.outdoes beats best = true) :
    s.value.isNaN = false := by
  unfold outdoes at beyond
  simp only [Bool.and_eq_true, Bool.not_eq_true'] at beyond
  exact beyond.1

theorem mem_of_foldl_farther {best : Option Sample} {samples : List Sample} {s : Sample}
    (kept : samples.foldl (farther beats) best = some s) :
    best = some s ∨ s ∈ samples ∧ s.value.isNaN = false := by
  induction samples generalizing best with
  | nil => exact Or.inl kept
  | cons t rest ih =>
    rcases ih kept with first | ⟨member, number⟩
    · unfold farther at first
      split at first
      · rename_i beyond
        cases first
        exact Or.inr ⟨List.mem_cons_self, isNaN_of_outdoes beyond⟩
      · exact Or.inl first
    · exact Or.inr ⟨List.mem_cons_of_mem _ member, number⟩

theorem foldl_farther_eq_none_iff (best : Option Sample) (samples : List Sample) :
    samples.foldl (farther beats) best = none ↔
      best = none ∧ ∀ s ∈ samples, s.value.isNaN = true := by
  induction samples generalizing best with
  | nil => simp
  | cons t rest ih =>
    rw [List.foldl_cons, ih, List.forall_mem_cons, farther]
    cases nan : t.value.isNaN with
    | true => simp [outdoes, nan]
    | false =>
      cases best with
      | none => simp [outdoes, nan]
      | some incumbent =>
        split <;> simp

section Strict

variable (irreflexive : ∀ x, beats x x = false)
  (transitive : ∀ x y z, beats x y = true → beats y z = true → beats x z = true)

include irreflexive transitive

/-- A sample that was met is not beyond the one kept. -/
theorem not_outdoes_of_met (best : Option Sample) {samples : List Sample} {s : Sample}
    (met : s ∈ samples) : s.outdoes beats (samples.foldl (farther beats) best) = false := by
  induction samples using List.reverseRecOn with
  | nil => cases met
  | append_singleton earlier t ih =>
    simp only [List.foldl_append, List.foldl_cons, List.foldl_nil]
    generalize earlier.foldl (farther beats) best = kept at ih ⊢
    unfold farther
    rcases List.mem_append.1 met with before | last
    · split
      · rename_i stepped
        rw [Bool.eq_false_iff]
        intro beyond
        -- What is beyond the newcomer is beyond the sample that was kept before.
        have further : s.outdoes beats kept = true := by
          unfold outdoes at beyond stepped ⊢
          cases kept with
          | none => simpa using isNaN_of_outdoes beyond
          | some incumbent =>
            simp only [Option.map_some, Option.all_some, Bool.and_eq_true] at beyond stepped ⊢
            exact ⟨beyond.1, transitive _ _ _ beyond.2 stepped.2⟩
        rw [ih before] at further
        cases further
      · exact ih before
    · have same : s = t := List.mem_singleton.1 last
      subst same
      split
      · simp [outdoes, irreflexive]
      · rename_i stays
        exact Bool.eq_false_iff.2 stays

theorem foldl_farther_again (best : Option Sample) (samples : List Sample) :
    samples.foldl (farther beats) (samples.foldl (farther beats) best) =
      samples.foldl (farther beats) best := by
  have still : ∀ s ∈ samples, s.outdoes beats (samples.foldl (farther beats) best) = false :=
    fun s met => not_outdoes_of_met irreflexive transitive best met
  generalize samples.foldl (farther beats) best = kept at still
  induction samples with
  | nil => rfl
  | cons s rest ih =>
    have stays : farther beats kept s = kept := if_neg (Bool.eq_false_iff.1 (still s List.mem_cons_self))
    rw [List.foldl_cons, stays]
    exact ih fun t member => still t (List.mem_cons_of_mem _ member)

end Strict

end Sample

namespace Binary64

theorem less_self (x : Binary64) : x.less x = false := by
  simp [less]

theorem less_trans {x y z : Binary64} (first : x.less y = true) (second : y.less z = true) :
    x.less z = true := by
  simp only [less, Bool.and_eq_true, decide_eq_true_eq] at first second ⊢
  exact ⟨⟨first.1.1, second.1.2⟩, by omega⟩

end Binary64

/-! ### Summaries -/

namespace Summary

variable {samples : List Sample} {summary : Summary} {p : Projection} {s : Sample}

theorem eq_of_ofSamples?_eq_some (made : ofSamples? samples = some summary) :
    latest? samples = some summary.latest ∧ lowest? samples = summary.lowest ∧
      highest? samples = summary.highest := by
  obtain ⟨latest, known, rfl⟩ := Option.map_eq_some_iff.1 made
  exact ⟨known, rfl, rfl⟩

/-- A projection shows one of the samples, and an extreme is not NaN. -/
theorem mem_of_get? (made : ofSamples? samples = some summary) (shown : summary.get? p = some s) :
    s ∈ samples ∧ (p ≠ .latest → s.value.isNaN = false) := by
  obtain ⟨latest, lowest, highest⟩ := eq_of_ofSamples?_eq_some made
  rw [Sample.lowest?_eq_foldl] at lowest
  rw [Sample.highest?_eq_foldl] at highest
  cases p with
  | latest =>
    cases shown
    refine ⟨?_, fun differs => absurd rfl differs⟩
    rcases Sample.mem_of_foldl_later latest with impossible | member
    · cases impossible
    · exact member
  | lowest =>
    rcases Sample.mem_of_foldl_farther (lowest.trans shown) with impossible | both
    · cases impossible
    · exact ⟨both.1, fun _ => both.2⟩
  | highest =>
    rcases Sample.mem_of_foldl_farther (highest.trans shown) with impossible | both
    · cases impossible
    · exact ⟨both.1, fun _ => both.2⟩

/-- The extremes are absent if every value is NaN, and only then. -/
theorem get?_eq_none_iff (made : ofSamples? samples = some summary) (extreme : p ≠ .latest) :
    summary.get? p = none ↔ ∀ s ∈ samples, s.value.isNaN = true := by
  obtain ⟨-, lowest, highest⟩ := eq_of_ofSamples?_eq_some made
  cases p with
  | latest => exact absurd rfl extreme
  | lowest =>
    change summary.lowest = none ↔ _
    rw [← lowest, Sample.lowest?_eq_foldl, Sample.foldl_farther_eq_none_iff]
    simp
  | highest =>
    change summary.highest = none ↔ _
    rw [← highest, Sample.highest?_eq_foldl, Sample.foldl_farther_eq_none_iff]
    simp

/-- Samples that were given up to some point and are then given again, from the start and all of them,
are summarised as if they had been given once. -/
theorem ofSamples?_resumed (before : List Sample) {part samples : List Sample}
    (start : part <+: samples) :
    ofSamples? (before ++ part ++ samples) = ofSamples? (before ++ samples) := by
  obtain ⟨rest, rfl⟩ := start
  have latest : latest? (before ++ part ++ (part ++ rest)) = latest? (before ++ (part ++ rest)) := by
    simp only [Sample.latest?_eq_foldl, List.foldl_append, Sample.foldl_later_again]
  have lowest : lowest? (before ++ part ++ (part ++ rest)) = lowest? (before ++ (part ++ rest)) := by
    simp only [Sample.lowest?_eq_foldl, List.foldl_append]
    rw [Sample.foldl_farther_again Binary64.less_self fun _ _ _ => Binary64.less_trans]
  have highest :
      highest? (before ++ part ++ (part ++ rest)) = highest? (before ++ (part ++ rest)) := by
    have again := @Sample.foldl_farther_again (fun x y => y.less x) Binary64.less_self
      fun _ _ _ first second => Binary64.less_trans second first
    simp only [Sample.highest?_eq_foldl, List.foldl_append, again]
  simp only [ofSamples?, latest, lowest, highest]

/-- Samples from the middle that are given again first do make a difference. -/
example :
    let low (step : Int64) : Sample := ⟨"loss", ⟨0⟩, 0, step⟩
    ofSamples? ([low 2] ++ [low 1, low 2]) ≠ ofSamples? [low 1, low 2] := by
  decide

end Summary

end RunMetrics

import RunMetrics.Summary

/-!
The summary that is kept up sample by sample and the one taken from all samples at once are the
same. The two are different folds, so each of the three projections is followed on its own.
-/

set_option autoImplicit false

namespace RunMetrics

theorem latest?_concat (samples : List Sample) (s : Sample) :
    latest? (samples ++ [s]) =
      some (match latest? samples with
        | some incumbent => if s.replaces incumbent then s else incumbent
        | none => s) := by
  rw [latest?, List.foldl_append, List.foldl_cons, List.foldl_nil, ← latest?]
  cases latest? samples with
  | none => rfl
  | some incumbent => exact (apply_ite some _ _ _).symm

theorem lowest?_concat (samples : List Sample) (s : Sample) :
    lowest? (samples ++ [s]) =
      if s.value.lowers ((lowest? samples).map Sample.value) then some s else lowest? samples := by
  rw [lowest?, List.foldl_append, List.foldl_cons, List.foldl_nil, ← lowest?]

theorem highest?_concat (samples : List Sample) (s : Sample) :
    highest? (samples ++ [s]) =
      if s.value.raises ((highest? samples).map Sample.value) then some s else highest? samples := by
  rw [highest?, List.foldl_append, List.foldl_cons, List.foldl_nil, ← highest?]

theorem latest?_eq_none_iff (samples : List Sample) : latest? samples = none ↔ samples = [] := by
  constructor
  · intro absent
    rcases List.eq_nil_or_concat samples with rfl | ⟨earlier, s, rfl⟩
    · rfl
    · rw [List.concat_eq_append, latest?_concat] at absent
      cases absent
  · rintro rfl
    rfl

namespace Summary

theorem ofSamples?_eq_none_iff (samples : List Sample) :
    ofSamples? samples = none ↔ samples = [] := by
  rw [ofSamples?, Option.map_eq_none_iff, latest?_eq_none_iff]

theorem single_eq (s : Sample) :
    single s =
      ⟨s, if s.value.lowers none then some s else none,
        if s.value.raises none then some s else none⟩ := by
  unfold single Binary64.lowers Binary64.raises
  cases s.value.isNaN <;> rfl

/-- Recomputing after one more sample is the same as folding it into what was computed before. -/
theorem ofSamples?_concat (samples : List Sample) (s : Sample) :
    ofSamples? (samples ++ [s]) = some (extend (ofSamples? samples) s) := by
  unfold ofSamples?
  rw [latest?_concat, lowest?_concat, highest?_concat]
  cases known : latest? samples with
  | none =>
    have nothing : samples = [] := (latest?_eq_none_iff samples).1 known
    subst nothing
    exact congrArg some (single_eq s).symm
  | some latest => rfl

end Summary

end RunMetrics

import RunMetrics.Proofs.SampleOrder

/-!
What a summary declares: of the samples than which none is later the last to arrive, of those with the
lowest value the first, and of those with the highest value the first. The sample that a fold keeps
splits its list: nothing behind the latest comes up to it, and what is in front of an extreme is NaN or
beaten by it.
-/

set_option autoImplicit false

namespace RunMetrics

namespace Sample

/-! ### The latest sample -/

/-- Whether none of the samples is later. -/
def isLatestOf (samples : List Sample) (s : Sample) : Bool := samples.all fun t => t.notAfter s

theorem split_of_latest? {samples : List Sample} {last : Sample} (kept : latest? samples = some last) :
    ∃ before after, samples = before ++ last :: after ∧ ∀ t ∈ after, last.notAfter t = false := by
  -- From the end: a sample that takes over has none behind it, any other one joins those behind.
  induction samples using List.reverseRecOn generalizing last with
  | nil => cases kept
  | append_singleton earlier s ih =>
    rw [latest?_concat] at kept
    cases known : latest? earlier with
    | none =>
      simp only [known, Option.some.injEq] at kept
      exact ⟨earlier, [], by rw [kept], by simp⟩
    | some incumbent =>
      simp only [known, Option.some.injEq] at kept
      cases replaced : s.replaces incumbent with
      | true =>
        rw [replaced, if_pos rfl] at kept
        exact ⟨earlier, [], by rw [kept], by simp⟩
      | false =>
        rw [replaced, if_neg Bool.false_ne_true] at kept
        subst kept
        obtain ⟨before, after, rfl, behind⟩ := ih known
        refine ⟨before, after ++ [s], by simp, fun t member => ?_⟩
        rcases List.mem_append.1 member with inside | last
        · exact behind t inside
        · rw [List.mem_singleton.1 last, ← replaces_eq_notAfter]
          exact replaced

/-- Of the samples than which none is later the fold keeps the last. -/
theorem latest?_eq_find? (samples : List Sample) :
    latest? samples = samples.reverse.find? (isLatestOf samples) := by
  cases kept : latest? samples with
  | none =>
    rw [(latest?_eq_none_iff samples).1 kept]
    rfl
  | some last =>
    obtain ⟨before, after, split, behind⟩ := split_of_latest? kept
    have latest : isLatestOf samples last = true := by
      rw [isLatestOf, List.all_eq_true]
      intro t met
      obtain ⟨found, same, follows⟩ := exists_foldl_later none met
      rw [← latest?_eq_foldl, kept] at same
      cases same
      rw [← replaces_eq_notAfter]
      exact follows
    symm
    rw [List.find?_eq_some_iff_append]
    refine ⟨latest, after.reverse, before.reverse, by simp [split], fun t member => ?_⟩
    rw [Bool.not_eq_true', isLatestOf, List.all_eq_false]
    refine ⟨last, by simp [split], ?_⟩
    rw [behind t (List.mem_reverse.1 member)]
    decide

/-! ### The extremes -/

/-- What makes a comparison of values one that tells which of two is farther out. -/
structure Outward (beats : Binary64 → Binary64 → Bool) : Prop where
  irreflexive : ∀ x, beats x x = false
  transitive : ∀ x y z, beats x y = true → beats y z = true → beats x z = true
  number : ∀ x y, beats x y = true → x.isNaN = false
  /-- What beats a value beats every number that does not beat it. -/
  beyond : ∀ x y z, beats x y = true → z.isNaN = false → beats z y = false → beats x z = true

theorem outward_less : Outward Binary64.less where
  irreflexive := Binary64.less_self
  transitive _ _ _ := Binary64.less_trans
  number x y below := by
    rw [Binary64.less_iff] at below
    exact below.1
  beyond _ _ _ := Binary64.less_of_less_of_not_less

theorem outward_greater : Outward fun x y => y.less x where
  irreflexive := Binary64.less_self
  transitive _ _ _ first second := Binary64.less_trans second first
  number x y above := by
    rw [Binary64.less_iff] at above
    exact above.2.1
  beyond _ _ _ above number kept := Binary64.less_of_not_less_of_less number kept above

variable {beats : Binary64 → Binary64 → Bool}

/-- Whether the value is not NaN and none of the samples has one farther out. -/
def isFarthestOf (beats : Binary64 → Binary64 → Bool) (samples : List Sample) (s : Sample) : Bool :=
  !s.value.isNaN && samples.all fun t => !beats t.value s.value

/-- A newcomer that steps in is farther out than every number that was met. -/
theorem beats_of_outdoes (outward : Outward beats) {samples : List Sample} {s t : Sample}
    (stepped : s.outdoes beats (samples.foldl (farther beats) none) = true) (met : t ∈ samples) :
    t.value.isNaN = true ∨ beats s.value t.value = true := by
  cases number : t.value.isNaN with
  | true => exact Or.inl rfl
  | false =>
    have still := not_outdoes_of_met outward.irreflexive outward.transitive none met
    cases kept : samples.foldl (farther beats) none with
    | none =>
      have nan := ((foldl_farther_eq_none_iff none samples).1 kept).2 t met
      rw [number] at nan
      cases nan
    | some incumbent =>
      rw [kept] at stepped still
      simp only [outdoes, Option.map_some, Option.all_some, number, Bool.not_false, Bool.true_and,
        Bool.and_eq_true] at stepped still
      exact Or.inr (outward.beyond _ _ _ stepped.2 number still)

theorem split_of_foldl_farther (outward : Outward beats) {samples : List Sample} {best : Sample}
    (kept : samples.foldl (farther beats) none = some best) :
    ∃ before after, samples = before ++ best :: after ∧
      ∀ t ∈ before, t.value.isNaN = true ∨ beats best.value t.value = true := by
  induction samples using List.reverseRecOn generalizing best with
  | nil => cases kept
  | append_singleton earlier s ih =>
    rw [List.foldl_append, List.foldl_cons, List.foldl_nil, farther] at kept
    split at kept
    · rename_i stepped
      cases kept
      exact ⟨earlier, [], rfl, fun t met => beats_of_outdoes outward stepped met⟩
    · obtain ⟨before, after, rfl, front⟩ := ih kept
      exact ⟨before, after ++ [s], by simp, front⟩

/-- The sample kept is one than which no sample is farther out. -/
theorem isFarthestOf_of_foldl_farther (outward : Outward beats) {samples : List Sample} {best : Sample}
    (kept : samples.foldl (farther beats) none = some best) :
    isFarthestOf beats samples best = true := by
  have number : best.value.isNaN = false := by
    rcases mem_of_foldl_farther kept with impossible | both
    · cases impossible
    · exact both.2
  rw [isFarthestOf, number, Bool.not_false, Bool.true_and, List.all_eq_true]
  intro t met
  have still := not_outdoes_of_met outward.irreflexive outward.transitive none met
  rw [kept] at still
  rw [Bool.not_eq_true', Bool.eq_false_iff]
  intro beyond
  simp [outdoes, outward.number _ _ beyond, beyond] at still

/-- Of the samples than which none is farther out the fold keeps the first. -/
theorem foldl_farther_eq_find? (outward : Outward beats) (samples : List Sample) :
    samples.foldl (farther beats) none = samples.find? (isFarthestOf beats samples) := by
  symm
  cases kept : samples.foldl (farther beats) none with
  | none =>
    rw [List.find?_eq_none]
    intro s met
    rw [isFarthestOf, ((foldl_farther_eq_none_iff none samples).1 kept).2 s met, Bool.not_true,
      Bool.false_and]
    exact Bool.false_ne_true
  | some best =>
    obtain ⟨before, after, split, front⟩ := split_of_foldl_farther outward kept
    rw [List.find?_eq_some_iff_append]
    refine ⟨isFarthestOf_of_foldl_farther outward kept, before, after, split, fun t member => ?_⟩
    rw [Bool.not_eq_true', isFarthestOf]
    rcases front t member with nan | beaten
    · rw [nan, Bool.not_true, Bool.false_and]
    · rw [Bool.and_eq_false_iff, List.all_eq_false]
      refine Or.inr ⟨best, by simp [split], ?_⟩
      rw [beaten]
      decide

/-- Where there is a number, an extreme is shown, and the number is not farther out. -/
theorem exists_farthest (outward : Outward beats) {samples : List Sample} {s : Sample}
    (met : s ∈ samples) (number : s.value.isNaN = false) :
    ∃ best, samples.find? (isFarthestOf beats samples) = some best ∧
      best.value.isNaN = false ∧ beats s.value best.value = false := by
  cases found : samples.find? (isFarthestOf beats samples) with
  | none =>
    rw [← foldl_farther_eq_find? outward, foldl_farther_eq_none_iff] at found
    rw [found.2 s met] at number
    cases number
  | some best =>
    have farthest := List.find?_some found
    rw [isFarthestOf, Bool.and_eq_true, Bool.not_eq_true', List.all_eq_true] at farthest
    exact ⟨best, rfl, farthest.1, by simpa using farthest.2 s met⟩

end Sample

/-! ### Summaries -/

namespace Summary

/-- The summary shows of the samples what its projections declare. -/
structure Aggregates (samples : List Sample) (summary : Summary) : Prop where
  /-- Of the samples than which none is later, the last. -/
  latest : samples.reverse.find? (Sample.isLatestOf samples) = some summary.latest
  /-- Of the samples than which none has a strictly smaller value, the first; NaN does not count. -/
  lowest : samples.find? (Sample.isFarthestOf Binary64.less samples) = summary.lowest
  /-- Of the samples than which none has a strictly larger value, the first; NaN does not count. -/
  highest : samples.find? (Sample.isFarthestOf (fun x y => y.less x) samples) = summary.highest

variable {samples : List Sample} {summary : Summary}

theorem ofSamples?_eq_some_iff : ofSamples? samples = some summary ↔ Aggregates samples summary := by
  have lowest := Sample.foldl_farther_eq_find? Sample.outward_less samples
  have highest := Sample.foldl_farther_eq_find? Sample.outward_greater samples
  rw [← Sample.lowest?_eq_foldl] at lowest
  rw [← Sample.highest?_eq_foldl] at highest
  constructor
  · intro made
    obtain ⟨last, low, high⟩ := eq_of_ofSamples?_eq_some made
    exact ⟨(Sample.latest?_eq_find? samples).symm.trans last, lowest.symm.trans low,
      highest.symm.trans high⟩
  · intro aggregates
    rw [ofSamples?, Sample.latest?_eq_find?, aggregates.latest, lowest, aggregates.lowest, highest,
      aggregates.highest]
    rfl

/-- Recomputing gives what adding the samples one by one to the summary of the first gives. -/
theorem ofSamples?_cons (first : Sample) (rest : List Sample) :
    ofSamples? (first :: rest) = some (rest.foldl add (single first)) := by
  induction rest using List.reverseRecOn with
  | nil => exact ofSamples?_concat [] first
  | append_singleton earlier s ih =>
    rw [← List.cons_append, ofSamples?_concat, ih, List.foldl_append, List.foldl_cons, List.foldl_nil,
      extend]

/-- The latest value lies between the extremes, if it is not NaN. -/
theorem Aggregates.within (aggregates : Aggregates samples summary)
    (number : summary.latest.value.isNaN = false) :
    ∃ low high, summary.lowest = some low ∧ summary.highest = some high ∧
      low.value.atMost summary.latest.value = true ∧
      summary.latest.value.atMost high.value = true := by
  have met : summary.latest ∈ samples :=
    (mem_of_get? (p := .latest) (ofSamples?_eq_some_iff.2 aggregates) rfl).1
  obtain ⟨low, lowest, lowNumber, notBelow⟩ :=
    Sample.exists_farthest Sample.outward_less met number
  obtain ⟨high, highest, highNumber, notAbove⟩ :=
    Sample.exists_farthest Sample.outward_greater met number
  exact ⟨low, high, aggregates.lowest.symm.trans lowest, aggregates.highest.symm.trans highest,
    Binary64.atMost_of_not_less lowNumber number notBelow,
    Binary64.atMost_of_not_less number highNumber notAbove⟩

/-- Taken from all samples at once or kept up one by one from the first, the summary is the declared one.
An extreme is absent if every value is NaN, and only then; none is ever NaN. The latest value is between
the extremes unless it is NaN itself. Of no samples there is no summary. -/
theorem batch_and_running_aggregate (first : Sample) (rest : List Sample) :
    ∃ summary, ofSamples? (first :: rest) = some summary ∧
      rest.foldl add (single first) = summary ∧
      Aggregates (first :: rest) summary ∧
      (∀ p, p ≠ .latest →
        (summary.get? p = none ↔ ∀ s ∈ first :: rest, s.value.isNaN = true) ∧
          ∀ s, summary.get? p = some s → s.value.isNaN = false) ∧
      (summary.latest.value.isNaN = false →
        ∃ low high, summary.lowest = some low ∧ summary.highest = some high ∧
          low.value.atMost summary.latest.value = true ∧
          summary.latest.value.atMost high.value = true) ∧
      ofSamples? [] = none := by
  have made := ofSamples?_cons first rest
  have aggregates := ofSamples?_eq_some_iff.1 made
  refine ⟨_, made, rfl, aggregates, fun p extreme => ⟨get?_eq_none_iff made extreme, ?_⟩,
    aggregates.within, rfl⟩
  intro s shown
  exact (mem_of_get? made shown).2 extreme

/-- The zeros are equal, so the first of them is both lowest and highest; of equal times the last. -/
example :
    let loss (bits : UInt64) : Sample := ⟨"loss", ⟨bits⟩, 0, 0⟩
    ofSamples? [loss 0x7ff8000000000000, loss 0x8000000000000000, loss 0, loss 0xfff8000000000001] =
      some ⟨loss 0xfff8000000000001, some (loss 0x8000000000000000),
        some (loss 0x8000000000000000)⟩ := by
  decide

end Summary

end RunMetrics

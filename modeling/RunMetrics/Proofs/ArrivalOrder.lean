import RunMetrics.Proofs.AppendLog
import RunMetrics.Proofs.DeclaredSummary

/-!
How far a summary depends on the order in which samples arrive. The samples on top, the latest ones or
those of an extreme value, are the same in every order, and they are tied with each other; the order only
decides which of them is shown. So the extreme values are fixed, and a sample that is shown is fixed as
soon as tied samples keep their order.
-/

set_option autoImplicit false

namespace RunMetrics

/-! ### Ties -/

/-- The items that are tied with any one come in the same order in both lists. -/
def KeepsOrder {α : Type} (tied : α → α → Bool) (xs ys : List α) : Prop :=
  ∀ item, xs.filter (tied item) = ys.filter (tied item)

/-- Where the items on top are tied with each other and with no others, their order is kept. -/
theorem KeepsOrder.filter_eq {α : Type} {tied : α → α → Bool} {xs ys : List α} {top : α → Bool}
    (kept : KeepsOrder tied xs ys) (perm : xs.Perm ys)
    (ties : ∀ best ∈ xs, top best = true → ∀ item ∈ xs, top item = tied best item) :
    xs.filter top = ys.filter top := by
  cases found : xs.filter top with
  | nil =>
    have nothing := perm.filter top
    rw [found] at nothing
    exact nothing.symm.eq_nil.symm
  | cons best rest =>
    obtain ⟨member, above⟩ := List.mem_filter.1 (found ▸ List.mem_cons_self)
    have left : xs.filter top = xs.filter (tied best) := List.filter_congr (ties best member above)
    have right : ys.filter top = ys.filter (tied best) := by
      apply List.filter_congr
      intro item there
      exact ties best member above item (perm.mem_iff.2 there)
    rw [← found, left, right, kept best]

namespace Binary64

/-- Equal in the order of IEEE 754: NaN equals nothing, and the two zeros are equal. -/
def equals (x y : Binary64) : Bool := !x.isNaN && !y.isNaN && decide (x.rank = y.rank)

theorem equals_iff (x y : Binary64) :
    x.equals y = true ↔
      x.isNaN = false ∧ y.isNaN = false ∧ x.less y = false ∧ y.less x = false := by
  cases first : x.isNaN <;> cases second : y.isNaN <;> simp [equals, less, first, second]
  omega

end Binary64

namespace Sample

/-- At the same timestamp and step. -/
def sameTime (s t : Sample) : Bool := s.timestamp == t.timestamp && s.step == t.step

/-- With equal values, in the order of IEEE 754. -/
def sameValue (s t : Sample) : Bool := s.value.equals t.value

theorem sameTime_iff (s t : Sample) :
    s.sameTime t = true ↔ s.timestamp = t.timestamp ∧ s.step = t.step := by
  simp [sameTime]

theorem notAfter_of_sameTime {s t : Sample} (same : s.sameTime t = true) (u : Sample) :
    u.notAfter s = u.notAfter t := by
  obtain ⟨timestamp, step⟩ := (sameTime_iff s t).1 same
  simp only [notAfter, timestamp, step]

theorem sameTime_of_notAfter {s t : Sample} (forth : s.notAfter t = true)
    (back : t.notAfter s = true) : s.sameTime t = true := by
  rw [sameTime_iff]
  simp only [notAfter, Bool.or_eq_true, Bool.and_eq_true, decide_eq_true_eq, beq_iff_eq,
    Int64.lt_iff_toInt_lt, Int64.le_iff_toInt_le, ← Int64.toInt_inj] at forth back ⊢
  omega

/-- Samples at different times have no ties to keep. -/
theorem keepsOrder_of_distinct {xs ys : List Sample} (perm : xs.Perm ys)
    (distinct : (xs.map fun s => (s.timestamp, s.step)).Nodup) : KeepsOrder sameTime xs ys := by
  intro s
  have tied (t : Sample) (member : t ∈ xs.filter (s.sameTime)) :
      (t.timestamp, t.step) = (s.timestamp, s.step) := by
    obtain ⟨timestamp, step⟩ := (sameTime_iff s t).1 (List.mem_filter.1 member).2
    rw [timestamp, step]
  have once := (List.filter_sublist (p := s.sameTime) (l := xs)).map fun t => (t.timestamp, t.step)
  have rearranged := perm.filter s.sameTime
  cases found : xs.filter s.sameTime with
  | nil =>
    rw [found] at rearranged
    exact rearranged.symm.eq_nil.symm
  | cons first rest =>
    cases rest with
    | nil =>
      rw [found] at rearranged
      exact (List.perm_singleton.1 rearranged.symm).symm
    | cons second rest =>
      rw [found] at tied once
      have apart := List.Nodup.sublist once distinct
      simp [tied first (by simp), tied second (by simp)] at apart

/-! ### The latest sample -/

theorem isLatestOf_perm {xs ys : List Sample} (perm : xs.Perm ys) : isLatestOf xs = isLatestOf ys :=
  funext fun _ => perm.all_eq

theorem isLatestOf_eq_sameTime {xs : List Sample} {last s : Sample} (member : last ∈ xs)
    (latest : isLatestOf xs last = true) (there : s ∈ xs) : isLatestOf xs s = last.sameTime s := by
  rw [Bool.eq_iff_iff]
  constructor
  · intro too
    rw [isLatestOf, List.all_eq_true] at latest too
    exact sameTime_of_notAfter (too last member) (latest s there)
  · intro same
    rw [isLatestOf, List.all_eq_true] at latest ⊢
    intro t met
    rw [← notAfter_of_sameTime same]
    exact latest t met

/-- Of the latest samples the last is shown, so it is enough that their order is kept. -/
theorem latest?_eq_of_keepsOrder {xs ys : List Sample} (perm : xs.Perm ys)
    (kept : KeepsOrder sameTime xs ys) : latest? xs = latest? ys := by
  have tops := kept.filter_eq perm fun last member latest s there =>
    isLatestOf_eq_sameTime member latest there
  rw [latest?_eq_find?, latest?_eq_find?, ← List.getLast?_filter, ← List.getLast?_filter, tops,
    isLatestOf_perm perm]

/-! ### The extremes -/

section Extremes

variable {beats : Binary64 → Binary64 → Bool} {xs ys : List Sample} (outward : Outward beats)
  (equal : ∀ x y, Binary64.equals x y = true ↔
    x.isNaN = false ∧ y.isNaN = false ∧ beats x y = false ∧ beats y x = false)

theorem isFarthestOf_perm (perm : xs.Perm ys) : isFarthestOf beats xs = isFarthestOf beats ys := by
  funext s
  rw [isFarthestOf, isFarthestOf, perm.all_eq]

include outward equal

theorem isFarthestOf_eq_sameValue {best s : Sample} (member : best ∈ xs)
    (farthest : isFarthestOf beats xs best = true) (there : s ∈ xs) :
    isFarthestOf beats xs s = best.sameValue s := by
  rw [Bool.eq_iff_iff, sameValue, equal]
  simp only [isFarthestOf, Bool.and_eq_true, Bool.not_eq_true', List.all_eq_true] at farthest ⊢
  constructor
  · rintro ⟨number, too⟩
    exact ⟨farthest.1, number, too best member, farthest.2 s there⟩
  · rintro ⟨-, number, kept, -⟩
    refine ⟨number, fun t met => ?_⟩
    rw [Bool.eq_false_iff]
    intro beyond
    -- What is beyond a sample of an equal value is beyond the best one too.
    have further := outward.beyond _ _ _ beyond farthest.1 kept
    rw [farthest.2 t met] at further
    cases further

/-- Of the farthest samples the first is shown, so it is enough that their order is kept. -/
theorem foldl_farther_eq_of_keepsOrder (perm : xs.Perm ys) (kept : KeepsOrder sameValue xs ys) :
    xs.foldl (farther beats) none = ys.foldl (farther beats) none := by
  have tops := kept.filter_eq perm fun best member farthest s there =>
    isFarthestOf_eq_sameValue outward equal member farthest there
  rw [foldl_farther_eq_find? outward, foldl_farther_eq_find? outward, ← List.head?_filter,
    ← List.head?_filter, tops, isFarthestOf_perm perm]

/-- In any order the farthest sample shown has the same value. -/
theorem rel_foldl_farther (perm : xs.Perm ys) :
    Option.Rel (fun s t => s.sameValue t = true) (xs.foldl (farther beats) none)
      (ys.foldl (farther beats) none) := by
  have absent : xs.foldl (farther beats) none = none ↔ ys.foldl (farther beats) none = none := by
    simp only [foldl_farther_eq_none_iff, perm.mem_iff]
  cases left : xs.foldl (farther beats) none with
  | none =>
    rw [absent.1 left]
    exact .none
  | some best =>
    cases right : ys.foldl (farther beats) none with
    | none =>
      rw [absent.2 right] at left
      cases left
    | some other =>
      have here := (mem_of_foldl_farther left).resolve_left nofun
      have there := (mem_of_foldl_farther right).resolve_left nofun
      have too := isFarthestOf_of_foldl_farther outward right
      rw [← isFarthestOf_perm perm] at too
      rw [isFarthestOf_eq_sameValue outward equal here.1
        (isFarthestOf_of_foldl_farther outward left) (perm.mem_iff.2 there.1)] at too
      exact .some too

end Extremes

end Sample

/-! ### Summaries -/

namespace Summary

/-- The sample that a projection shows of samples. -/
def projected (samples : List Sample) : Projection → Option Sample
  | .latest => latest? samples
  | .lowest => lowest? samples
  | .highest => highest? samples

theorem bind_get?_ofSamples? (samples : List Sample) (p : Projection) :
    (ofSamples? samples).bind (fun summary => summary.get? p) = projected samples p := by
  cases made : ofSamples? samples with
  | none =>
    rw [(ofSamples?_eq_none_iff samples).1 made]
    cases p <;> rfl
  | some summary =>
    obtain ⟨latest, lowest, highest⟩ := eq_of_ofSamples?_eq_some made
    cases p with
    | latest => exact latest.symm
    | lowest => exact lowest.symm
    | highest => exact highest.symm

/-- What summaries have in common that are taken of the same samples in two orders. -/
structure Rearranged (xs ys : List Sample) (first second : Option Summary) : Prop where
  /-- An extreme is absent from both, or has equal values. -/
  values : ∀ p, p ≠ .latest → Option.Rel (fun s t => s.value.equals t.value = true)
    (first.bind fun summary => summary.get? p) (second.bind fun summary => summary.get? p)
  /-- The latest sample is the same one if samples of one timestamp and step keep their order. -/
  latest : KeepsOrder Sample.sameTime xs ys →
    first.map Summary.latest = second.map Summary.latest
  /-- So it is if no two samples have one timestamp and step. -/
  latest_of_distinct : (xs.map fun s => (s.timestamp, s.step)).Nodup →
    first.map Summary.latest = second.map Summary.latest
  /-- The extremes are the same samples if those with equal values keep their order. -/
  extremes : KeepsOrder Sample.sameValue xs ys → ∀ p, p ≠ .latest →
    (first.bind fun summary => summary.get? p) = second.bind fun summary => summary.get? p

theorem rearranged_of_perm {xs ys : List Sample} (perm : xs.Perm ys) :
    Rearranged xs ys (ofSamples? xs) (ofSamples? ys) := by
  have latest (kept : KeepsOrder Sample.sameTime xs ys) :
      (ofSamples? xs).map Summary.latest = (ofSamples? ys).map Summary.latest := by
    have same := Sample.latest?_eq_of_keepsOrder perm kept
    simpa only [ofSamples?, Option.map_map, Function.comp_def, Option.map_id_fun', id_eq] using same
  refine ⟨fun p extreme => ?_, latest, fun distinct => ?_, fun kept p extreme => ?_⟩
  · rw [bind_get?_ofSamples?, bind_get?_ofSamples?]
    cases p with
    | latest => exact absurd rfl extreme
    | lowest => exact Sample.rel_foldl_farther Sample.outward_less Binary64.equals_iff perm
    | highest =>
      exact Sample.rel_foldl_farther Sample.outward_greater
        (fun x y => (Binary64.equals_iff x y).trans (by tauto)) perm
  · exact latest (Sample.keepsOrder_of_distinct perm distinct)
  · rw [bind_get?_ofSamples?, bind_get?_ofSamples?]
    cases p with
    | latest => exact absurd rfl extreme
    | lowest =>
      exact Sample.foldl_farther_eq_of_keepsOrder Sample.outward_less Binary64.equals_iff perm kept
    | highest =>
      exact Sample.foldl_farther_eq_of_keepsOrder Sample.outward_greater
        (fun x y => (Binary64.equals_iff x y).trans (by tauto)) perm kept

end Summary

/-! ### Stores -/

namespace Store

open Snapshot (samplesOf)

variable {ρ σ κ τ : Type} [Roster ρ] [Journal σ] [Roster κ] [Journal τ]

/-- The summary of a metric is that of its accepted samples, if no snapshot is imported, which a roster
that changes its mind could stop in the middle. -/
theorem summary_of_accepted (settings : Settings) (registration : Registration ρ) (journal : σ)
    (events : List (Event ρ)) (recorded : ∀ read, .call (.importSnapshot read) ∉ events)
    {run : String}
    (known : ((empty settings registration journal).after events).knows run = true) (key : String) :
    ((empty settings registration journal).after events).summary run key =
      .ok (Summary.ofSamples?
        (samplesOf ⟨run, key⟩ ((empty settings registration journal).acceptedDuring events))) := by
  have extended := after_extends_of_calls events
    (fun store call sound member => perform_extends_recorded store sound call
      fun read same => recorded read (same ▸ member))
    (empty settings registration journal) (empty_sound settings registration journal)
  have samples := extended.slots.samples ⟨run, key⟩
  rw [summary_eq, answerFor_of_known known, (extended.sound.slot ⟨run, key⟩).summary,
    History.summary?]
  exact congrArg (fun samples => Except.ok (Summary.ofSamples? samples)) samples

/-- Of samples in two orders the summaries show equal lowest and equal highest values. They show the same
latest sample if samples of one time keep their order, and the same extremes if samples with equal values
do. So it is with two stores, over any rosters and journals, that have accepted the samples for one
metric of a run they know, one by one or in batches, beside any others and after any failed calls. -/
theorem summaries_of_rearranged_samples :
    (∀ xs ys, xs.Perm ys →
      Summary.Rearranged xs ys (Summary.ofSamples? xs) (Summary.ofSamples? ys)) ∧
      ∀ (settings settings' : Settings) (registration : Registration ρ)
        (registration' : Registration κ) (journal : σ) (journal' : τ) (events : List (Event ρ))
        (events' : List (Event κ)) (run key : String),
        let start := empty settings registration journal
        let start' := empty settings' registration' journal'
        let xs := samplesOf ⟨run, key⟩ (start.acceptedDuring events)
        let ys := samplesOf ⟨run, key⟩ (start'.acceptedDuring events')
        (∀ read, .call (.importSnapshot read) ∉ events) →
        (∀ read, .call (.importSnapshot read) ∉ events') →
        (start.after events).knows run = true → (start'.after events').knows run = true →
        xs.Perm ys →
        ∃ first second, (start.after events).summary run key = .ok first ∧
          (start'.after events').summary run key = .ok second ∧
          Summary.Rearranged xs ys first second := by
  refine ⟨fun xs ys perm => Summary.rearranged_of_perm perm, ?_⟩
  intro settings settings' registration registration' journal journal' events events' run key start
    start' xs ys recorded recorded' known known' perm
  exact ⟨_, _, summary_of_accepted settings registration journal events recorded known key,
    summary_of_accepted settings' registration' journal' events' recorded' known' key,
    Summary.rearranged_of_perm perm⟩

/-- One by one with a refused sample between, and as a batch in another order. The lowest samples are two
zeros, which are equal but not the same; the latest is the one sample of its time. -/
theorem summaries_of_two_orders :
    let loss (bits : UInt64) (step : Int64) : Sample := ⟨"loss", ⟨bits⟩, 0, step⟩
    let single : List (Event RunSet) :=
      [.call (.register "run"), .call (.record "run" (loss 0 1)), .call (.record "run" (loss 0 (-1))),
        .call (.record "run" (loss 0x8000000000000000 2)),
        .call (.record "run" (loss 0x7ff8000000000000 3))]
    let batch : List (Event RunSet) :=
      [.call (.register "run"),
        .call (.recordAll "run" [loss 0x7ff8000000000000 3, loss 0x8000000000000000 2, loss 0 1])]
    let first : Store RunSet Silent := (empty {} (.own RunSet.empty) .mk).after single
    let second : Store RunSet Logbook := (empty {} (.own RunSet.empty) (Logbook.empty none)).after batch
    ∃ left right, first.summary "run" "loss" = .ok left ∧ second.summary "run" "loss" = .ok right ∧
      left ≠ right ∧ left.map Summary.latest = right.map Summary.latest ∧
      Option.Rel (fun s t => s.value.equals t.value = true) (left.bind Summary.lowest)
        (right.bind Summary.lowest) := by
  intro loss single batch first second
  obtain ⟨-, stores⟩ := @summaries_of_rearranged_samples RunSet Silent RunSet Logbook _ _ _ _
  obtain ⟨left, right, shown, shown', rearranged⟩ :=
    stores {} {} (.own RunSet.empty) (.own RunSet.empty) .mk (Logbook.empty none) single batch "run"
      "loss" (by simp [single]) (by simp [batch]) (by decide) (by decide) (by decide)
  have differ : first.summary "run" "loss" ≠ second.summary "run" "loss" := by decide
  refine ⟨left, right, shown, shown', ?_, rearranged.latest_of_distinct (by decide),
    rearranged.values .lowest (by decide)⟩
  rintro rfl
  exact differ (shown.trans shown'.symm)

end Store

end RunMetrics

import RunMetrics.Proofs.OverviewEntries
import RunMetrics.Proofs.RunProjections
import RunMetrics.Proofs.ValidSamples
import RunMetrics.Proofs.WireRoundTrip

/-!
Overviews that go over the wire. The tables of an overview are flattened into lists in order of their
keys and filled again from them; a sample on the way is refused only for an empty key, and changed
only if its value is NaN.
-/

set_option autoImplicit false

namespace RunMetrics

/-- The sample with one NaN in place of all. -/
def Sample.canonical (s : Sample) : Sample := { s with value := s.value.canonical }

theorem Sample.canonical_of_number {s : Sample} (number : s.value.isNaN = false) :
    s.canonical = s := by
  rw [canonical, Binary64.canonical, number]
  rfl

/-- The overview with one NaN in place of all. -/
def Overview.canonical (o : Overview) : Overview :=
  { o with
    latest := o.latest.map .canonical
    lowest := o.lowest.map .canonical
    highest := o.highest.map .canonical }

theorem Overview.samples_canonical (o : Overview) (p : Projection) :
    o.canonical.samples p = (o.samples p).map .canonical := by
  cases p <;> rfl

/-- The numbers in the overview read back. -/
def Overview.ReadsBack (o : Overview) : Prop :=
  ∀ p, ∀ s ∈ (o.samples p).values, s.value.ReadsBack

/-- No sample of the overview has an empty key. -/
def Overview.Named (o : Overview) : Prop :=
  ∀ p key s, (o.samples p).get? key = some s → s.key ≠ ""

theorem Overview.named_iff (o : Overview) :
    o.Named ↔ ∀ p, ¬ ∃ s ∈ (o.samples p).values, s.key = "" := by
  simp only [Named, Table.mem_values_iff]
  constructor
  · rintro named p ⟨s, ⟨key, found⟩, nameless⟩
    exact named p key s found nameless
  · intro named p key s found nameless
    exact named p ⟨s, ⟨key, found⟩, nameless⟩

namespace Record

/-! ### Values and samples -/

theorem Quantity.ofBinary64_eq (x : Binary64) : ofBinary64 x = (number x).settled := by
  cases finite : x.isFinite with
  | true => rw [settled, if_pos finite, ofBinary64, spelling?_of_finite finite]
  | false => rw [settled, if_neg (Bool.eq_false_iff.1 finite)]

/-- What was spelled stays spelled. -/
theorem Quantity.settled_ofBinary64 (x : Binary64) : (ofBinary64 x).settled = ofBinary64 x := by
  cases finite : x.isFinite with
  | true =>
    rw [ofBinary64, spelling?_of_finite finite]
    exact if_pos finite
  | false =>
    obtain ⟨s, spelled, -⟩ := ofBinary64_of_not_finite finite
    rw [spelled, settled]

/-- A value that is spelled has no number in it to be read. -/
theorem Quantity.readsBack_ofBinary64 {x : Binary64} (back : x.ReadsBack) :
    (ofBinary64 x).ReadsBack := by
  cases finite : x.isFinite with
  | true =>
    rw [ofBinary64, spelling?_of_finite finite]
    exact back
  | false =>
    obtain ⟨s, spelled, -⟩ := ofBinary64_of_not_finite finite
    rw [spelled]
    trivial

theorem Quantity.toBinary64_ofBinary64 (x : Binary64) :
    (ofBinary64 x).toBinary64 = .ok x.canonical := by
  rw [ofBinary64_eq, toBinary64_settled]
  rfl

theorem SampleRecord.settled_ofSample (s : Sample) : (ofSample s).settled = ofSample s := by
  rw [settled, ofSample, Quantity.settled_ofBinary64]

theorem SampleRecord.toSample_ofSample (s : Sample) :
    (ofSample s).toSample true =
      if s.key = "" then .error (.refused .emptyKey) else .ok s.canonical := by
  rw [toSample, ofSample, Quantity.toBinary64_ofBinary64]
  change (do
    Sample.check true s.canonical
    .ok s.canonical) = _
  by_cases nameless : s.key = ""
  · have empty : s.canonical.key = "" := nameless
    rw [Sample.check, if_pos empty, if_pos nameless]
    rfl
  · have valid := (Sample.check_eq_ok_iff true s.canonical).2 ⟨nameless, Or.inl rfl⟩
    rw [valid, if_neg nameless]
    rfl

/-! ### Overviews -/

namespace OverviewRecord

variable {o : Overview}

/-- The overview that comes back of the text of an overview. -/
def relay (o : Overview) : Except Failure Overview := do
  let record ← decode codec (encode codec (ofOverview o))
  record.toOverview

theorem settled_ofOverview (o : Overview) : (ofOverview o).settled = ofOverview o := by
  simp only [settled, ofOverview, List.map_map, Function.comp_def, SampleRecord.settled_ofSample]

theorem readsBack_ofOverview (back : o.ReadsBack) :
    ∀ s ∈ (ofOverview o).samples, s.value.ReadsBack := by
  have each (p : Projection) : ∀ r ∈ (o.samples p).values.map SampleRecord.ofSample,
      r.value.ReadsBack :=
    List.forall_mem_map.2 fun s member => Quantity.readsBack_ofBinary64 (back p s member)
  simp only [samples, ofOverview, List.mem_append, or_imp, forall_and]
  exact ⟨⟨each .latest, each .lowest⟩, each .highest⟩

theorem relay_eq (back : o.ReadsBack) : relay o = (ofOverview o).toOverview := by
  rw [relay, decode_encode (readsAs (readsBack_ofOverview back)) (by decide), settled_ofOverview]
  rfl

/-- The samples are put in one after the other, up to the first without a key. -/
theorem putRecords_ofSample (p : Projection) (o : Overview) (samples : List Sample) :
    putRecords p o (samples.map .ofSample) =
      if ∃ s ∈ samples, s.key = "" then .error (.refused .emptyKey)
      else .ok (o.putSamples p (samples.map .canonical)) := by
  induction samples generalizing o with
  | nil => simp [putRecords, Overview.putSamples, pure, Except.pure]
  | cons s rest ih =>
    rw [putRecords, List.map_cons, List.foldlM_cons, SampleRecord.toSample_ofSample]
    by_cases nameless : s.key = ""
    · simp [nameless, bind, Except.bind]
    · have others := ih (o.putSample p s.canonical)
      rw [if_neg nameless]
      change putRecords p (o.putSample p s.canonical) (rest.map .ofSample) = _
      rw [others]
      simp [nameless, Overview.putSamples]

theorem map_toPair (pairs : List (String × String)) :
    (pairs.map NoteRecord.ofPair).map NoteRecord.toPair = pairs := by
  rw [List.map_map]
  exact List.map_id pairs

theorem toOverview_of_named (keyed : o.Keyed) (named : o.Named) :
    (ofOverview o).toOverview = .ok o.canonical := by
  have every := o.named_iff.1 named
  have latest : ¬ ∃ s ∈ o.latest.values, s.key = "" := every .latest
  have lowest : ¬ ∃ s ∈ o.lowest.values, s.key = "" := every .lowest
  have highest : ¬ ∃ s ∈ o.highest.values, s.key = "" := every .highest
  simp only [toOverview, ofOverview, putRecords_ofSample, latest, lowest, highest, if_false,
    map_toPair]
  apply congrArg Except.ok
  have filled (p : Projection) : Table.empty.insertAll
      (((o.samples p).values.map Sample.canonical).map fun s => (s.key, s)) =
        (o.samples p).map .canonical := by
    rw [List.map_map, ← Table.insertAll_entries ((o.samples p).map Sample.canonical)]
    exact congrArg Table.empty.insertAll (keyed.map_values p Sample.canonical)
  apply Overview.ext_samples
  · intro p
    rw [Overview.samples_putTags, Overview.samples_putParams, Overview.samples_canonical, ← filled p]
    cases p <;> simp [Overview.samples_putSamples] <;> rfl
  · simp only [Overview.putTags_eq, Overview.putParams_eq, Overview.params_putSamples]
    exact Table.insertAll_entries o.params
  · simp only [Overview.putTags_eq, Overview.putParams_eq, Overview.tags_putSamples]
    exact Table.insertAll_entries o.tags

theorem toOverview_of_not_named (nameless : ¬ o.Named) :
    (ofOverview o).toOverview = .error (.refused .emptyKey) := by
  rw [o.named_iff] at nameless
  simp only [not_forall, not_not] at nameless
  obtain ⟨p, found⟩ := nameless
  simp only [toOverview, ofOverview, putRecords_ofSample]
  by_cases latest : ∃ s ∈ o.latest.values, s.key = ""
  · simp [latest, bind, Except.bind]
  · by_cases lowest : ∃ s ∈ o.lowest.values, s.key = ""
    · simp [latest, lowest, bind, Except.bind]
    · have highest : ∃ s ∈ o.highest.values, s.key = "" := by
        cases p with
        | latest => exact absurd found latest
        | lowest => exact absurd found lowest
        | highest => exact found
      simp [latest, lowest, highest, bind, Except.bind]

theorem relay_of_named (back : o.ReadsBack) (keyed : o.Keyed) (named : o.Named) :
    relay o = .ok o.canonical := by
  rw [relay_eq back, toOverview_of_named keyed named]

theorem relay_of_not_named (back : o.ReadsBack) (nameless : ¬ o.Named) :
    relay o = .error (.refused .emptyKey) := by
  rw [relay_eq back, toOverview_of_not_named nameless]

end OverviewRecord

end Record

/-! ### Overviews of stores -/

namespace Store

open Record (OverviewRecord)

section Sound

variable {ρ σ : Type} {store : Store ρ σ}

theorem Sound.keyed_overview (sound : store.Sound) (run : String) :
    (store.views run).overview.Keyed := by
  intro p key s found
  exact (History.keyed _ s (sound.mem_of_get?_samples found).1).trans (sound.slot ⟨run, key⟩).key

theorem Sound.canonical_of_extreme (sound : store.Sound) (run : String) {p : Projection}
    (extreme : p ≠ .latest) :
    (store.views run).overview.canonical.samples p = (store.views run).overview.samples p := by
  rw [Overview.samples_canonical]
  apply Table.ext_get?
  intro key
  rw [Table.get?_map]
  cases found : ((store.views run).overview.samples p).get? key with
  | none => rfl
  | some s =>
    have number : s.value.isNaN = false := (sound.mem_of_get?_samples found).2 extreme
    exact congrArg some (Sample.canonical_of_number number)

end Sound

variable {ρ σ : Type} [Roster ρ] [Journal σ]

/-- The overview of a reachable store has no sample without a key. -/
theorem named_overview (settings : Settings) (registration : Registration ρ) (journal : σ)
    (events : List (Event ρ)) (run : String) :
    (((empty settings registration journal).after events).views run).overview.Named := by
  intro p key s found
  have sound := after_sound settings registration journal events
  have member := (sound.mem_of_get?_samples found).1
  have valid := valid_of_slot settings registration journal events ⟨run, key⟩ s member
  exact ((Sample.check_eq_ok_iff settings.allowNegative s).1 valid).1

/-- Whatever has been put into an overview, if its numbers read back, what is read of its text is refused
if one of its samples has an empty key. Otherwise an overview comes back with the same params and tags and,
under the same keys, the same samples bit for bit, but for NaN, of which there is only one then. The overview
of a known run of any store comes back, if its numbers read back and whatever numbers the store allows, with
its lowest and highest samples unchanged. -/
theorem overviews_survive_wire (settings : Settings) (registration : Registration ρ) (journal : σ)
    (events : List (Event ρ)) :
    (∀ entries : List Overview.Entry,
      let o := Overview.ofEntries entries
      let nameless := ∃ p key s, (o.samples p).get? key = some s ∧ s.key = ""
      o.ReadsBack →
        (nameless → OverviewRecord.relay o = .error (.refused .emptyKey)) ∧
        (¬ nameless → ∃ back, OverviewRecord.relay o = .ok back ∧ back.params = o.params ∧
          back.tags = o.tags ∧
          ∀ p key, (back.samples p).get? key = ((o.samples p).get? key).map .canonical)) ∧
      ∀ run,
        let store := (empty settings registration journal).after events
        store.knows run = true →
          ∃ o, store.overview run = .ok o ∧
            (o.ReadsBack →
              ∃ back, OverviewRecord.relay o = .ok back ∧
                back.params = o.params ∧ back.tags = o.tags ∧
                (∀ key, back.latest.get? key = (o.latest.get? key).map .canonical) ∧
                back.lowest = o.lowest ∧ back.highest = o.highest) := by
  have samples (o : Overview) (p : Projection) (key : String) :
      (o.canonical.samples p).get? key = ((o.samples p).get? key).map .canonical := by
    rw [Overview.samples_canonical, Table.get?_map]
  constructor
  · intro entries o nameless reads
    have keyed : o.Keyed := Overview.keyed_ofEntries entries
    have named : o.Named ↔ ¬ nameless := by
      simp only [nameless, Overview.Named, not_exists, not_and]
    constructor
    · intro found
      exact OverviewRecord.relay_of_not_named reads fun every => named.1 every found
    · intro every
      exact ⟨o.canonical, OverviewRecord.relay_of_named reads keyed (named.2 every), rfl, rfl,
        samples o⟩
  · intro run store known
    have sound : store.Sound := after_sound settings registration journal events
    have named := named_overview settings registration journal events run
    refine ⟨_, (sound.shows known).overview, fun reads =>
      ⟨_, OverviewRecord.relay_of_named reads (sound.keyed_overview run) named, rfl, rfl, ?_, ?_, ?_⟩⟩
    · exact samples _ .latest
    · exact sound.canonical_of_extreme run (p := .lowest) (by decide)
    · exact sound.canonical_of_extreme run (p := .highest) (by decide)

/-- NaN with a payload comes back without it, a third as it is, and an overview with an empty key not at
all. -/
theorem overviews_of_odd_samples :
    let odd : Sample := ⟨"loss", ⟨0x7ff8000000000001⟩, -1, -1⟩
    let third : Sample := ⟨"", ⟨0xbfd5555555555555⟩, 0, 0⟩
    let store := (empty {} (.own RunSet.empty : Registration RunSet) Silent.mk).after
      [.call (.register "train"), .call (.record "train" { third with key := "loss" })]
    (∃ back, OverviewRecord.relay (Overview.ofEntries [.sample .latest odd, .tag "" "late"]) =
        .ok back ∧ (back.samples .latest).get? "loss" = some ⟨"loss", .nan, -1, -1⟩) ∧
      OverviewRecord.relay (Overview.ofEntries [.sample .lowest third]) =
        .error (.refused .emptyKey) ∧
      ∃ o back, store.overview "train" = .ok o ∧ OverviewRecord.relay o = .ok back ∧
        back.lowest.get? "loss" = some { third with key := "loss" } := by
  intro odd third store
  obtain ⟨survive, known⟩ := overviews_survive_wire {} (.own RunSet.empty : Registration RunSet)
    Silent.mk [.call (.register "train"), .call (.record "train" { third with key := "loss" })]
  have reads (p : Projection) (s : Sample) (number : s.value.ReadsBack) :
      (Overview.ofEntries [.sample p s]).ReadsBack := by
    intro q t member
    cases p <;> cases q <;> first
      | cases List.mem_singleton.1 member
        exact number
      | cases member
  refine ⟨?_, ?_, ?_⟩
  · obtain ⟨-, whole⟩ := survive [.sample .latest odd, .tag "" "late"]
      (reads .latest odd (by decide +kernel))
    obtain ⟨back, read, -, -, same⟩ := whole <| by
      rintro ⟨p, key, s, found, nameless⟩
      cases p with
      | latest =>
        have member := (Table.mem_entries_iff _ key s).2 found
        cases List.mem_singleton.1 member
        exact absurd nameless (by decide)
      | lowest => cases found
      | highest => cases found
    exact ⟨back, read, (same .latest "loss").trans (by decide)⟩
  · exact (survive [.sample .lowest third] (reads .lowest third (by decide +kernel))).1
      ⟨.lowest, "", _, rfl, rfl⟩
  · obtain ⟨o, shown, relayed⟩ := known "train" (by decide)
    have listed (p : Projection) :
        ∀ s ∈ (((store.overview "train").toOption.getD .empty).samples p).values,
          s.value.ReadsBack := by
      cases p <;> decide +kernel
    have lowest : ((store.overview "train").toOption.getD .empty).lowest.get? "loss" =
        some { third with key := "loss" } := by
      decide
    rw [shown] at listed lowest
    obtain ⟨back, read, -, -, -, same, -⟩ := relayed listed
    exact ⟨o, back, shown, read, same ▸ lowest⟩

end Store

end RunMetrics

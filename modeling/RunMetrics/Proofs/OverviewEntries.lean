import RunMetrics.Proofs.TableLookup
import RunMetrics.Run.Overview

/-!
What an overview holds after something was put into it. Its five tables are filled on their own, and
the samples of each projection stand under their own keys.
-/

set_option autoImplicit false

namespace RunMetrics.Overview

theorem ext_samples {a b : Overview} (samples : ∀ p, a.samples p = b.samples p)
    (params : a.params = b.params) (tags : a.tags = b.tags) : a = b := by
  have latest : a.latest = b.latest := samples .latest
  have lowest : a.lowest = b.lowest := samples .lowest
  have highest : a.highest = b.highest := samples .highest
  cases a
  cases b
  cases latest
  cases lowest
  cases highest
  cases params
  cases tags
  rfl

@[simp] theorem samples_empty (p : Projection) : empty.samples p = Table.empty := by
  cases p <;> rfl

/-! ### Samples -/

theorem samples_putSample (o : Overview) (p q : Projection) (s : Sample) :
    (o.putSample p s).samples q = if q = p then (o.samples p).insert s.key s else o.samples q := by
  cases p <;> cases q <;> rfl

@[simp] theorem params_putSample (o : Overview) (p : Projection) (s : Sample) :
    (o.putSample p s).params = o.params := by
  cases p <;> rfl

@[simp] theorem tags_putSample (o : Overview) (p : Projection) (s : Sample) :
    (o.putSample p s).tags = o.tags := by
  cases p <;> rfl

/-- Puts samples into a projection, in order. -/
def putSamples (o : Overview) (p : Projection) (samples : List Sample) : Overview :=
  samples.foldl (fun o s => o.putSample p s) o

theorem putSamples_cons (o : Overview) (p : Projection) (s : Sample) (rest : List Sample) :
    o.putSamples p (s :: rest) = (o.putSample p s).putSamples p rest := rfl

theorem samples_putSamples (o : Overview) (p q : Projection) (samples : List Sample) :
    (o.putSamples p samples).samples q =
      if q = p then (o.samples p).insertAll (samples.map fun s => (s.key, s)) else o.samples q := by
  induction samples generalizing o with
  | nil =>
    split
    · rename_i same
      rw [same]
      rfl
    · rfl
  | cons s rest ih =>
    rw [putSamples_cons, ih, samples_putSample, samples_putSample, if_pos rfl, List.map_cons,
      Table.insertAll, Table.insertAll, List.foldl_cons]
    split
    · rfl
    · rfl

@[simp] theorem params_putSamples (o : Overview) (p : Projection) (samples : List Sample) :
    (o.putSamples p samples).params = o.params := by
  induction samples generalizing o with
  | nil => rfl
  | cons s rest ih => rw [putSamples_cons, ih, params_putSample]

@[simp] theorem tags_putSamples (o : Overview) (p : Projection) (samples : List Sample) :
    (o.putSamples p samples).tags = o.tags := by
  induction samples generalizing o with
  | nil => rfl
  | cons s rest ih => rw [putSamples_cons, ih, tags_putSample]

theorem samples_putSummary (o : Overview) (summary : Summary) (p : Projection) :
    (o.putSummary summary).samples p =
      match summary.get? p with
      | some s => (o.samples p).insert s.key s
      | none => o.samples p := by
  obtain ⟨latest, lowest, highest⟩ := summary
  cases p <;> cases lowest <;> cases highest <;> rfl

@[simp] theorem params_putSummary (o : Overview) (summary : Summary) :
    (o.putSummary summary).params = o.params := by
  obtain ⟨latest, lowest, highest⟩ := summary
  cases lowest <;> cases highest <;> rfl

@[simp] theorem tags_putSummary (o : Overview) (summary : Summary) :
    (o.putSummary summary).tags = o.tags := by
  obtain ⟨latest, lowest, highest⟩ := summary
  cases lowest <;> cases highest <;> rfl

/-! ### Params and tags -/

theorem putParams_eq (o : Overview) (pairs : List (String × String)) :
    o.putParams pairs = { o with params := o.params.insertAll pairs } := by
  induction pairs generalizing o with
  | nil => rfl
  | cons pair rest ih => exact ih (o.putParam pair.1 pair.2)

theorem putTags_eq (o : Overview) (pairs : List (String × String)) :
    o.putTags pairs = { o with tags := o.tags.insertAll pairs } := by
  induction pairs generalizing o with
  | nil => rfl
  | cons pair rest ih => exact ih (o.putTag pair.1 pair.2)

theorem samples_putParams (o : Overview) (pairs : List (String × String)) (p : Projection) :
    (o.putParams pairs).samples p = o.samples p := by
  rw [putParams_eq]
  cases p <;> rfl

theorem samples_putTags (o : Overview) (pairs : List (String × String)) (p : Projection) :
    (o.putTags pairs).samples p = o.samples p := by
  rw [putTags_eq]
  cases p <;> rfl

/-! ### Own keys -/

/-- Every sample stands under its own key. -/
def Keyed (o : Overview) : Prop := ∀ p key s, (o.samples p).get? key = some s → s.key = key

theorem keyed_empty : Keyed empty := by
  intro p key s found
  rw [samples_empty] at found
  cases found

theorem Keyed.of_insert {t : Table String Sample} (keyed : ∀ key s, t.get? key = some s → s.key = key)
    {new s : Sample} {key : String} (found : (t.insert new.key new).get? key = some s) :
    s.key = key := by
  by_cases same : key = new.key
  · rw [same, Table.get?_insert_self] at found
    cases found
    exact same.symm
  · rw [Table.get?_insert_of_ne _ _ same] at found
    exact keyed key s found

theorem Keyed.put {o : Overview} (keyed : o.Keyed) (entry : Entry) : (o.put entry).Keyed := by
  intro p key s found
  cases entry with
  | sample q new =>
    rw [Overview.put, samples_putSample] at found
    split at found
    · exact Keyed.of_insert (keyed q) found
    · exact keyed p key s found
  | summary summary =>
    rw [Overview.put, samples_putSummary] at found
    split at found
    · exact Keyed.of_insert (keyed p) found
    · exact keyed p key s found
  | param name text => exact keyed p key s (by cases p <;> exact found)
  | tag name text => exact keyed p key s (by cases p <;> exact found)
  | params pairs => exact keyed p key s (samples_putParams o pairs p ▸ found)
  | tags pairs => exact keyed p key s (samples_putTags o pairs p ▸ found)

theorem keyed_ofEntries (entries : List Entry) : (ofEntries entries).Keyed :=
  List.foldlRecOn entries put keyed_empty fun _ keyed entry _ => keyed.put entry

/-- The samples of a projection, each under its own key, are its entries. -/
theorem Keyed.map_values {o : Overview} (keyed : o.Keyed) (p : Projection) (f : Sample → Sample) :
    ((o.samples p).values.map fun s => (s.key, f s)) = ((o.samples p).map f).entries := by
  rw [Table.values, List.map_map]
  apply List.map_congr_left
  rintro ⟨key, s⟩ member
  rw [Function.comp_apply, keyed p key s ((Table.mem_entries_iff _ key s).1 member)]

end RunMetrics.Overview

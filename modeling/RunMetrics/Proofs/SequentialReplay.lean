import RunMetrics.Proofs.AlikeStores
import RunMetrics.Proofs.SnapshotImport
import RunMetrics.Proofs.SummaryDrift

/-!
Importing a file of histories and replaying the histories one by one. The file gives them back grouped,
in another order; since the samples of each metric keep their order, and the same runs become known, the
two stores show the same. What is refused is refused for the first objection to a group.
-/

set_option autoImplicit false

namespace RunMetrics.Store

open Snapshot (Batch Holds Row rowsOf samplesOf totals)

variable {ρ σ : Type} [Roster ρ]

/-- The calls that replay histories one by one. -/
def replays (histories : List History) : List (Event ρ) :=
  histories.map fun h => .call (.replay h)

/-- What was replayed decides, with the store before, what the store shows. -/
theorem Replayed.looks {store first second : Store ρ σ} {histories others : List History}
    (left : Replayed store first histories) (right : Replayed store second others)
    (samples : ∀ series, samplesOf series (rowsOf histories) = samplesOf series (rowsOf others))
    (runs : ∀ run, run ∈ histories.map History.run ↔ run ∈ others.map History.run) :
    Looks first second := by
  have knows := left.registration.contains_eq right.registration runs
  obtain ⟨registration, slots, rfl⟩ := left.rest
  obtain ⟨more, grown, rfl⟩ := right.rest
  refine ⟨left.sound, right.sound, knows, fun series => ?_, rfl, rfl⟩
  apply (left.sound.slotAt series).eq_of_samples_eq (right.sound.slotAt series)
  rw [left.slots.samples, right.slots.samples, samples]

/-- There is no objection to the metrics of histories exactly if there is none to the histories. -/
theorem findSome?_totals_eq_none_iff (store : Store ρ σ) (histories : List History) :
    (totals histories).findSome? (fun total => store.objection total.1 total.2) = none ↔
      ∀ h ∈ histories, store.objection h.series h.samples = none := by
  have listed (total : Series × List Sample) : total ∈ totals histories ↔
      ∃ h ∈ histories, (h.series,
        (histories.filter fun g => g.series = h.series).flatMap History.samples) = total := by
    simp [totals]
  rw [List.findSome?_eq_none_iff]
  simp only [objection_eq_none_iff]
  constructor
  · intro passed h member
    obtain ⟨valid, admitted⟩ := passed _ ((listed _).2 ⟨h, member, rfl⟩)
    refine ⟨fun s inside => valid s ?_, admitted⟩
    exact List.mem_flatMap.2 ⟨h, List.mem_filter.2 ⟨member, decide_eq_true rfl⟩, inside⟩
  · intro passed total member
    obtain ⟨h, there, rfl⟩ := (listed total).1 member
    refine ⟨fun s inside => ?_, (passed h there).2⟩
    obtain ⟨g, kept, held⟩ := List.mem_flatMap.1 inside
    exact (passed g (List.mem_filter.1 kept).1).1 s held

/-- There is no objection if all samples are valid and, where others register runs, all runs known. -/
theorem no_objection_iff (store : Store ρ σ) (histories : List History) :
    (totals histories).findSome? (fun total => store.objection total.1 total.2) = none ↔
      (∀ h ∈ histories, ∀ s ∈ h.samples, s.check store.settings.allowNegative = .ok ()) ∧
        (store.registration.isOwn = false → ∀ h ∈ histories, store.knows h.run = true) := by
  rw [findSome?_totals_eq_none_iff]
  simp only [objection_eq_none_iff, Registration.admits, History.series, Bool.or_eq_true]
  constructor
  · intro passed
    refine ⟨fun h member => (passed h member).1, fun shared h member => ?_⟩
    simpa [shared, knows] using (passed h member).2
  · rintro ⟨valid, known⟩ h member
    refine ⟨valid h member, ?_⟩
    cases own : store.registration.isOwn with
    | true => exact Or.inl rfl
    | false => exact Or.inr (known own h member)

/-- The groups of the rows of histories are their metrics, each with all its samples. -/
theorem findSome?_group_rowsOf (store : Store ρ σ) (histories : List History)
    (nonempty : ∀ h ∈ histories, h.samples ≠ []) :
    (Snapshot.group (rowsOf histories)).findSome? (fun g => store.objection g.series g.samples) =
      (totals histories).findSome? fun total => store.objection total.1 total.2 := by
  rw [← Snapshot.group_rowsOf histories nonempty, List.findSome?_map]
  rfl

theorem mem_runs_group_rowsOf (histories : List History) (nonempty : ∀ h ∈ histories, h.samples ≠ [])
    (run : String) :
    run ∈ (Snapshot.group (rowsOf histories)).map History.run ↔ run ∈ histories.map History.run := by
  have runs (hs : List History) : hs.map History.run = (hs.map History.series).map Series.run := by
    rw [List.map_map]
    rfl
  rw [runs, runs, Snapshot.map_series_group, Snapshot.eraseDups_series_rowsOf histories nonempty,
    List.mem_map, List.mem_map]
  simp only [List.mem_eraseDups]

variable [Roster.Steady ρ] [Journal σ]

/-- Histories that may each be replayed are replayed one after the other, and all succeed. -/
theorem after_replays (store : Store ρ σ) (sound : store.Sound) (histories : List History)
    (passed : ∀ h ∈ histories, (store.checkReplay h).1 = .ok ()) :
    Replayed store (store.after (replays histories)) histories ∧
      store.replies (replays histories) = histories.map fun h => .ok (.count h.size) := by
  induction histories generalizing store with
  | nil => exact ⟨sound.replayed_nil, rfl⟩
  | cons h rest ih =>
    obtain ⟨next, replayed, first⟩ :=
      replayed_of_passed store sound h (passed h List.mem_cons_self)
    have still : ∀ g ∈ rest, (next.checkReplay g).1 = .ok () := by
      intro g member
      rw [first.checkReplay_eq]
      exact passed g (List.mem_cons_of_mem _ member)
    obtain ⟨others, replies⟩ := ih next first.sound still
    have performed : store.perform (.replay h) = (.ok (.count h.size), next) := by
      rw [perform, replayed]
      rfl
    constructor
    · change Replayed store ((store.perform (.replay h)).2.after (replays rest)) (h :: rest)
      rw [performed]
      exact first.trans others
    · change (store.perform (.replay h)).1 :: (store.perform (.replay h)).2.replies (replays rest) =
        _
      rw [performed, List.map_cons, replies]

/-- A file that histories were written to is imported if all their samples are valid and, where others
register runs, all their runs are known. It then does what replaying them one by one does, for the store
and for the set of runs it keeps. Otherwise it fails with the first objection to a metric, the metrics
being taken in order of first appearance, each with all its samples, and nothing changes. -/
theorem import_is_sequential_replay (settings : Settings) (registration : Registration ρ)
    (journal : σ) (events : List (Event ρ)) (histories : List History)
    (nonempty : ∀ h ∈ histories, h.samples ≠ []) (shelf : Shelf) (file : String)
    (reaches : shelf.reaches file = true) :
    let store := (empty settings registration journal).after events
    let sequential := store.after (replays histories)
    ∃ last, shelf.writeSnapshot file histories = .ok ((histories.map History.size).sum, last) ∧
      (∃ batches, last.readBatches file = .ok batches ∧ last.Gives file batches) ∧
      ∀ batches, last.Gives file batches →
        let result := store.importSnapshot (.ok batches)
        ((∃ n, result.1 = .ok n) ↔
          (∀ h ∈ histories, ∀ s ∈ h.samples, s.check store.settings.allowNegative = .ok ()) ∧
            (store.registration.isOwn = false → ∀ h ∈ histories, store.knows h.run = true)) ∧
        (∀ n, result.1 = .ok n →
          n = (histories.map History.size).sum ∧
            store.replies (replays histories) = histories.map (fun h => .ok (.count h.size)) ∧
            (∀ read : Call, read.isRead = true →
              (result.2.perform read).1 = (sequential.perform read).1) ∧
            (∀ run, result.2.registration.contains run = sequential.registration.contains run) ∧
            (∀ runs, sequential.registration = .own runs → result.2.registration = .own runs)) ∧
        (∀ f, result.1 = .error f →
          (totals histories).findSome? (fun total => store.objection total.1 total.2) = some f ∧
            result.2.slots = store.slots ∧
            (∀ read : Call, read.isRead = true →
              (result.2.perform read).1 = (store.perform read).1) ∧
            (∀ run, result.2.registration.contains run = store.registration.contains run) ∧
            (∀ runs, store.registration = .own runs → result.2.registration = .own runs)) := by
  intro store sequential
  have sound : store.Sound := after_sound settings registration journal events
  obtain ⟨last, written, read, gives⟩ := shelf.writeSnapshot_of_reaches reaches histories
  refine ⟨last, written, ⟨_, read, (gives _).2 (Snapshot.holds_ofHistories histories)⟩, ?_⟩
  intro batches given result
  have holds : Holds batches (rowsOf histories) := (gives batches).1 given
  have grouped := findSome?_group_rowsOf store histories nonempty
  rw [← no_objection_iff store histories]
  cases objected : (totals histories).findSome? fun total => store.objection total.1 total.2 with
  | some f =>
    rw [objected] at grouped
    obtain ⟨runs, refused⟩ := importSnapshot_of_objection store holds grouped
    have unchanged : result = (.error f, store.askedAll runs) := refused
    rw [unchanged]
    have questions := sound.replayed_askedAll runs
    have looks : Looks (store.askedAll runs) store :=
      questions.looks sound.replayed_nil (fun _ => rfl) fun _ => Iff.rfl
    refine ⟨by simp, nofun, ?_⟩
    rintro _ ⟨⟩
    refine ⟨rfl, rfl, fun read reads => looks.read reads, looks.knows, fun runs own => ?_⟩
    exact Registration.eq_own_of_contains_eq questions.registration.isOwn looks.knows own
  | none =>
    rw [objected] at grouped
    obtain ⟨next, taken, replayed⟩ := importSnapshot_of_no_objection store sound holds grouped
    have imported : result = (.ok (rowsOf histories).length, next) := taken
    rw [imported]
    obtain ⟨others, replies⟩ := after_replays store sound histories fun h member => by
      rw [checkReplay_fst, (findSome?_totals_eq_none_iff store histories).1 objected h member]
    have looks : Looks next sequential :=
      replayed.looks others (fun series => Snapshot.samplesOf_group series _)
        (mem_runs_group_rowsOf histories nonempty)
    refine ⟨by simp, ?_, nofun⟩
    rintro _ ⟨⟩
    refine ⟨Snapshot.length_rowsOf_eq_sum histories, replies, fun read reads => looks.read reads,
      looks.knows, fun runs own => ?_⟩
    refine Registration.eq_own_of_contains_eq ?_ looks.knows own
    exact replayed.registration.isOwn.trans others.registration.isOwn.symm

/-- The samples of one metric stand on both sides of another one's; the run is known elsewhere. -/
theorem import_of_interleaved_histories :
    let store : Store RunSet Silent :=
      (empty {} (.shared RunSet.empty) .mk).after [.call (.register "train")]
    let histories : List History :=
      [⟨"train", "loss", [⟨"loss", ⟨1⟩, 0, 1⟩], by decide⟩,
        ⟨"train", "accuracy", [⟨"accuracy", ⟨2⟩, 0, 1⟩], by decide⟩,
        ⟨"train", "loss", [⟨"loss", ⟨3⟩, 0, 2⟩], by decide⟩]
    ∃ last batches, Shelf.empty.writeSnapshot "metrics" histories = .ok (3, last) ∧
      last.Gives "metrics" batches ∧ (store.importSnapshot (.ok batches)).1 = .ok 3 ∧
      ∀ read : Call, read.isRead = true →
        ((store.importSnapshot (.ok batches)).2.perform read).1 =
          ((store.after (replays histories)).perform read).1 := by
  intro store histories
  obtain ⟨last, written, ⟨batches, -, given⟩, imported⟩ :=
    import_is_sequential_replay {} (.shared RunSet.empty) Silent.mk
      [.call (.register "train")] histories (by decide) Shelf.empty "metrics" (by decide)
  obtain ⟨success, sequential, -⟩ := imported batches given
  obtain ⟨n, answer⟩ := success.2 ⟨by decide, by decide⟩
  obtain ⟨count, -, reads, -⟩ := sequential n answer
  have total : n = 3 := count
  subst total
  exact ⟨last, batches, written, given, answer, reads⟩

end RunMetrics.Store

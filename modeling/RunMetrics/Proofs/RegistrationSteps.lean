import RunMetrics.Proofs.OwnRuns

/-!
What calls do to a registration. Recording, setting notes and reading ask it, replays may also take runs
in, and only a call that registers does more; a roster that is kept elsewhere is only asked by all others.
-/

set_option autoImplicit false

namespace RunMetrics.Store

variable {ρ σ : Type} [Roster ρ]

section Led

variable {kept : Registration ρ → Prop} (asked : ∀ r run, kept r → kept (r.asked run))

include asked

theorem kept_askedAll (store : Store ρ σ) (start : kept store.registration) (runs : List String) :
    kept (store.askedAll runs).registration := by
  change kept (runs.foldl Registration.asked store.registration)
  generalize store.registration = r at start
  induction runs generalizing r with
  | nil => exact start
  | cons run rest ih => exact ih (r.asked run) (asked r run start)

/-- What questions keep, a call that neither registers nor replays keeps. -/
theorem kept_perform_of_asks [Journal σ] (store : Store ρ σ) (call : Call)
    (never : ∀ run, call ≠ .register run) (recorded : call.replays = false)
    (start : kept store.registration) : kept (store.perform call).2.registration := by
  cases call with
  | register run => exact absurd rfl (never run)
  | record run s =>
    obtain ⟨runs, journal, slots, same⟩ := record_rest store run s
    simp only [perform, same]
    exact kept_askedAll asked store start runs
  | recordAll run samples =>
    obtain ⟨runs, journal, slots, same⟩ := recordAll_rest store run samples
    simp only [perform, same]
    exact kept_askedAll asked store start runs
  | setParam run name text =>
    simp only [perform]
    unfold setParam
    split <;> exact asked _ run start
  | setTag run name text =>
    simp only [perform]
    unfold setTag
    split <;> exact asked _ run start
  | replay h => cases recorded
  | replayJournal run key => cases recorded
  | importSnapshot read => cases recorded
  | drifted => exact start
  | knows run | summary run _ | history run _ | snapshot run _ | keys run | histories run
  | overview run | rows run => exact asked _ run start

variable (enrol : ∀ r run, kept r → kept (r.enrol run))

include enrol

theorem kept_replay (store : Store ρ σ) (h : History) (start : kept store.registration) :
    kept (store.replay h).2.registration := by
  obtain ⟨runs, questions⟩ := checkReplay_snd store h
  have still := kept_askedAll asked store start runs
  unfold replay
  rcases checked : store.checkReplay h with ⟨f | _, next⟩
  · rw [checked] at questions
    subst questions
    exact still
  · rw [checked] at questions
    subst questions
    exact enrol _ h.run still

variable [Journal σ]

/-- What questions and replays keep, every call that does not register keeps. -/
theorem kept_perform (store : Store ρ σ) (call : Call) (never : ∀ run, call ≠ .register run)
    (start : kept store.registration) : kept (store.perform call).2.registration := by
  cases call with
  | replay h => exact kept_replay asked enrol store h start
  | replayJournal run key =>
    apply replayJournal_preserves fun next => kept next.registration
    · exact fun _ _ before => before
    · exact fun next h before => kept_replay asked enrol next h before
    · exact start
  | importSnapshot read =>
    apply importSnapshot_preserves fun next => kept next.registration
    · exact fun next runs before => kept_askedAll asked next before runs
    · exact fun next h before => kept_replay asked enrol next h before
    · exact start
  | _ => exact kept_perform_of_asks asked store _ never rfl start

end Led

/-- A roster that is kept elsewhere is only asked, whatever calls other than registering are made. -/
theorem after_shared [Journal σ] (store : Store ρ σ) {roster : ρ}
    (shared : store.registration = .shared roster) (calls : List Call)
    (never : ∀ call ∈ calls, ∀ run, call ≠ .register run) :
    ∃ runs : List String, (store.after (calls.map .call)).registration =
      .shared (runs.foldl Roster.asked roster) := by
  -- The questions are quantified inside, so that each call may add its own.
  let kept (r : Registration ρ) : Prop :=
    ∃ runs : List String, r = .shared (runs.foldl Roster.asked roster)
  have asked (r : Registration ρ) (run : String) : kept r → kept (r.asked run) := by
    rintro ⟨runs, rfl⟩
    exact ⟨runs ++ [run], by rw [List.foldl_append]; rfl⟩
  have enrol (r : Registration ρ) (run : String) : kept r → kept (r.enrol run) := by
    rintro ⟨runs, rfl⟩
    exact ⟨runs, rfl⟩
  have start : kept store.registration := ⟨[], shared⟩
  change kept (store.after (calls.map .call)).registration
  clear shared
  induction calls generalizing store with
  | nil => exact start
  | cons call rest ih =>
    exact ih (store.perform call).2
      (fun other member => never other (List.mem_cons_of_mem _ member))
      (kept_perform asked enrol store call (never call List.mem_cons_self) start)

end RunMetrics.Store

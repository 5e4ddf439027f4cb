import RunMetrics.Proofs.SnapshotImport
import RunMetrics.Proofs.SummaryDrift

/-!
Runs that are not forgotten. The runs of a store that registers them itself never are. Of a roster that
is kept elsewhere it has to be said: that it forgets none when it is asked or registers one, and that
others strike none from it. Then known runs stay known, and samples enter for known runs only.
-/

set_option autoImplicit false

namespace RunMetrics

/-- A roster forgets no run when it is asked for one or registers one. -/
structure Roster.Retentive (ρ : Type) [Roster ρ] : Prop where
  asked : ∀ (r : ρ) (run other : String), Roster.contains r other = true →
    Roster.contains (Roster.asked r run) other = true
  register : ∀ (r : ρ) (run other : String), Roster.contains r other = true →
    Roster.contains (Roster.register r run).2 other = true

theorem RunSet.retentive : Roster.Retentive RunSet where
  asked _ _ _ known := known
  register runs run other known := (contains_register runs run other).2 (Or.inr known)

theorem Registration.isOwn_moved {ρ : Type} (r : Registration ρ) (roster : ρ) :
    (r.moved roster).isOwn = r.isOwn := by
  cases r <;> rfl

variable {ρ : Type} [Roster ρ]

namespace Registration

/-- If runs are registered elsewhere, then with a roster that forgets none. -/
def Retentive (r : Registration ρ) : Prop := r.isOwn = false → Roster.Retentive ρ

variable {r : Registration ρ}

theorem retentive_of_isOwn (own : r.isOwn = true) : r.Retentive := by
  intro shared
  rw [own] at shared
  cases shared

theorem Retentive.foldl_asked (retentive : r.Retentive) (runs : List String) {run : String}
    (known : r.contains run = true) : (runs.foldl asked r).contains run = true := by
  induction runs generalizing r with
  | nil => exact known
  | cons other rest ih =>
    cases r with
    | own kept => exact ih retentive known
    | shared roster => exact ih (fun _ => retentive rfl) ((retentive rfl).asked roster other run known)

theorem Retentive.register (retentive : r.Retentive) (run : String) {other : String}
    (known : r.contains other = true) : (r.register run).2.contains other = true := by
  cases r with
  | own runs => exact (RunSet.contains_register runs run other).2 (Or.inr known)
  | shared roster => exact (retentive rfl).register roster run other known

theorem isOwn_register (r : Registration ρ) (run : String) : (r.register run).2.isOwn = r.isOwn := by
  cases r <;> rfl

/-- A run of which a history may be replayed is known once the history is taken in. -/
theorem contains_enrol_of_admits {run : String} (admitted : r.admits run = true) :
    (r.enrol run).contains run = true := by
  rw [(enrolled_enrol r run).contains]
  rw [admits, Bool.or_eq_true] at admitted
  rcases admitted with own | known
  · exact Or.inr ⟨own, List.mem_singleton.2 rfl⟩
  · exact Or.inl known

end Registration

namespace Store

variable {σ : Type}

/-- Known runs stay known, and the slots grow by samples of known runs. -/
structure Advance (before after : Store ρ σ) : Prop where
  isOwn : after.registration.isOwn = before.registration.isOwn
  known : ∀ run, before.knows run = true → after.knows run = true
  grown : ∃ rows, Extends before after rows ∧ ∀ row ∈ rows, after.knows row.run = true

variable {store next last : Store ρ σ}

theorem Advance.sound (advance : Advance store next) : next.Sound := by
  obtain ⟨rows, extended, -⟩ := advance.grown
  exact extended.sound

theorem Advance.retentive (advance : Advance store next) (retentive : store.registration.Retentive) :
    next.registration.Retentive := fun shared => retentive (advance.isOwn.symm.trans shared)

theorem Advance.trans (first : Advance store next) (second : Advance next last) :
    Advance store last := by
  obtain ⟨rows, left, here⟩ := first.grown
  obtain ⟨more, right, there⟩ := second.grown
  refine ⟨second.isOwn.trans first.isOwn, fun run known => second.known run (first.known run known),
    rows ++ more, left.trans right, fun row member => ?_⟩
  rcases List.mem_append.1 member with earlier | later
  · exact second.known row.run (here row earlier)
  · exact there row later

/-- If samples were held of known runs only, they still are. -/
theorem Advance.known_of_held (advance : Advance store next)
    (before : ∀ series, (store.slot series).history.samples ≠ [] → store.knows series.run = true)
    (series : Series) (held : (next.slot series).history.samples ≠ []) :
    next.knows series.run = true := by
  obtain ⟨rows, extended, known⟩ := advance.grown
  have samples : (next.slot series).history.samples =
      (store.slot series).history.samples ++ Snapshot.samplesOf series rows :=
    extended.slots.samples series
  by_cases earlier : (store.slot series).history.samples = []
  · rw [samples, earlier, List.nil_append] at held
    obtain ⟨row, there, same⟩ := Snapshot.samplesOf_ne_nil_iff.1 held
    have here : row.run = series.run := congrArg Series.run same
    rw [← here]
    exact known row there
  · exact advance.known series.run (before series earlier)

/-- Samples of known runs may enter while the roster is only asked. -/
theorem Extends.advance {rows : List Snapshot.Row} (extended : Extends store next rows)
    (retentive : store.registration.Retentive) (runs : List String)
    (questions : next.registration = runs.foldl Registration.asked store.registration)
    (known : ∀ row ∈ rows, store.knows row.run = true) : Advance store next := by
  have still (run : String) (before : store.knows run = true) : next.knows run = true := by
    rw [knows, questions]
    exact retentive.foldl_asked runs before
  refine ⟨?_, still, rows, extended, fun row member => still row.run (known row member)⟩
  rw [questions, Registration.isOwn_foldl_asked]

/-- As long as no slot changes, it is enough that the roster is only asked. -/
theorem Sound.advance (sound : store.Sound) (retentive : store.registration.Retentive)
    (runs : List String)
    (questions : next.registration = runs.foldl Registration.asked store.registration)
    (settings : next.settings = store.settings) (slots : next.slots = store.slots) :
    Advance store next :=
  (sound.extends_of_slots_eq settings slots).advance retentive runs questions (by simp)

theorem register_advance (store : Store ρ σ) (sound : store.Sound)
    (retentive : store.registration.Retentive) (run : String) :
    Advance store (store.register run).2 :=
  ⟨Registration.isOwn_register store.registration run,
    fun _ known => retentive.register run known, [], sound.extends_of_slots_eq rfl rfl, by simp⟩

theorem setParam_advance (store : Store ρ σ) (sound : store.Sound)
    (retentive : store.registration.Retentive) (run name text : String) :
    Advance store (store.setParam run name text).2 := by
  unfold setParam
  split <;> exact sound.advance retentive [run] rfl rfl rfl

theorem setTag_advance (store : Store ρ σ) (sound : store.Sound)
    (retentive : store.registration.Retentive) (run name text : String) :
    Advance store (store.setTag run name text).2 := by
  unfold setTag
  split <;> exact sound.advance retentive [run] rfl rfl rfl

theorem replay_advance (store : Store ρ σ) (sound : store.Sound)
    (retentive : store.registration.Retentive) (h : History) :
    Advance store (store.replay h).2 := by
  obtain ⟨runs, asked⟩ := checkReplay_snd store h
  have extended := replay_extends store sound h
  cases passed : (store.checkReplay h).1 with
  | error f =>
    rw [replay_of_refused store h passed, asked]
    exact sound.advance retentive runs rfl rfl rfl
  | ok =>
    obtain ⟨slots, replayed, -⟩ := replay_of_admitted store sound h passed
    rw [asked] at replayed
    rw [replayed] at extended ⊢
    have enrolled := Registration.enrolled_enrol (store.askedAll runs).registration h.run
    refine ⟨?_, fun run known => ?_, _, extended, fun row member => ?_⟩
    · exact enrolled.isOwn.trans (Registration.isOwn_foldl_asked store.registration runs)
    · exact (enrolled.contains run).2 (Or.inl (retentive.foldl_asked runs known))
    · have here : row.run = h.run :=
        congrArg Series.run (Snapshot.series_of_mem_rowsOf (h := h) member)
      rw [here]
      apply Registration.contains_enrol_of_admits
      -- Where the run has to be known already, the roster still knows it after the questions.
      have admitted := ((checkReplay_eq_ok_iff store h).1 passed).2
      rw [Registration.admits, Bool.or_eq_true] at admitted ⊢
      refine admitted.imp (fun own => ?_) (retentive.foldl_asked runs)
      exact (Registration.isOwn_foldl_asked store.registration runs).trans own

theorem importSnapshot_advance (store : Store ρ σ) (sound : store.Sound)
    (retentive : store.registration.Retentive) (read : Except Failure (List Snapshot.Batch)) :
    Advance store (store.importSnapshot read).2 := by
  apply importSnapshot_preserves (Advance store)
  · intro next runs advance
    have still := advance.retentive retentive
    exact advance.trans (advance.sound.advance still runs rfl rfl rfl)
  · intro next h advance
    exact advance.trans (replay_advance next advance.sound (advance.retentive retentive) h)
  · exact sound.advance retentive [] rfl rfl rfl

variable [Journal σ]

theorem record_advance (store : Store ρ σ) (sound : store.Sound)
    (retentive : store.registration.Retentive) (run : String) (s : Sample) :
    Advance store (store.record run s).2 := by
  have outcome := record_outcome store sound run s
  have extended := record_extends store sound run s
  generalize store.record run s = result at outcome extended ⊢
  cases outcome with
  | invalid _ => exact sound.advance retentive [] rfl rfl rfl
  | unknown _ _ => exact sound.advance retentive [run] rfl rfl rfl
  | refused _ _ _ _ => exact extended.advance retentive [run] rfl (by simp [rowsIfOk])
  | taken _ known _ _ => exact extended.advance retentive [run] rfl (by simpa [rowsIfOk] using known)

theorem recordAll_advance (store : Store ρ σ) (sound : store.Sound)
    (retentive : store.registration.Retentive) (run : String) (samples : List Sample) :
    Advance store (store.recordAll run samples).2 := by
  apply recordAll_preserves (Advance store) run
  · intro next s nextSound advance
    exact advance.trans (record_advance next nextSound (advance.retentive retentive) run s)
  · exact sound
  · exact sound.advance retentive [] rfl rfl rfl

theorem replayJournal_advance (store : Store ρ σ) (sound : store.Sound)
    (retentive : store.registration.Retentive) (run key : String) :
    Advance store (store.replayJournal run key).2 := by
  apply replayJournal_preserves (Advance store)
  · intro next journal advance
    have still := advance.retentive retentive
    exact advance.trans (advance.sound.advance still [] rfl rfl rfl)
  · intro next h advance
    exact advance.trans (replay_advance next advance.sound (advance.retentive retentive) h)
  · exact sound.advance retentive [] rfl rfl rfl

theorem perform_advance (store : Store ρ σ) (sound : store.Sound)
    (retentive : store.registration.Retentive) (call : Call) :
    Advance store (store.perform call).2 := by
  cases call with
  | register run => exact register_advance store sound retentive run
  | record run s => exact record_advance store sound retentive run s
  | recordAll run samples => exact recordAll_advance store sound retentive run samples
  | setParam run name text => exact setParam_advance store sound retentive run name text
  | setTag run name text => exact setTag_advance store sound retentive run name text
  | replay h => exact replay_advance store sound retentive h
  | replayJournal run key => exact replayJournal_advance store sound retentive run key
  | importSnapshot read => exact importSnapshot_advance store sound retentive read
  | drifted => exact sound.advance retentive [] rfl rfl rfl
  | knows run | summary run _ | history run _ | snapshot run _ | keys run | histories run
  | overview run | rows run => exact sound.advance retentive [run] rfl rfl rfl

/-! ### Runs of events -/

/-- Those who change the roster strike no run from it that is known by then. -/
def Unstruck (store : Store ρ σ) : List (Event ρ) → Prop
  | [] => True
  | .call call :: rest => (store.perform call).2.Unstruck rest
  | .moved roster :: rest =>
    (∀ run, store.knows run = true → (store.step (.moved roster)).knows run = true) ∧
      (store.step (.moved roster)).Unstruck rest

/-- No run is forgotten during the events: neither by the roster nor by those who change it. -/
structure Remembers (store : Store ρ σ) (events : List (Event ρ)) : Prop where
  retentive : store.registration.Retentive
  unstruck : store.Unstruck events

theorem Remembers.step_advance {event : Event ρ} {rest : List (Event ρ)} (sound : store.Sound)
    (remembers : store.Remembers (event :: rest)) :
    Advance store (store.step event) ∧ (store.step event).Remembers rest := by
  cases event with
  | call call =>
    have advance := perform_advance store sound remembers.retentive call
    exact ⟨advance, advance.retentive remembers.retentive, remembers.unstruck⟩
  | moved roster =>
    have advance : Advance store (store.step (.moved roster)) :=
      ⟨Registration.isOwn_moved store.registration roster, remembers.unstruck.1,
        [], sound.extends_of_slots_eq rfl rfl, by simp⟩
    exact ⟨advance, advance.retentive remembers.retentive, remembers.unstruck.2⟩

theorem Remembers.after_advance {events : List (Event ρ)} (sound : store.Sound)
    (remembers : store.Remembers events) : Advance store (store.after events) := by
  induction events generalizing store with
  | nil => exact sound.advance remembers.retentive [] rfl rfl rfl
  | cons event rest ih =>
    obtain ⟨first, tail⟩ := remembers.step_advance sound
    exact first.trans (ih first.sound tail)

/-- A store that registers runs itself forgets none, whatever others do to any roster. -/
theorem Sound.remembers_of_isOwn (sound : store.Sound) (own : store.registration.isOwn = true)
    (events : List (Event ρ)) : store.Remembers events := by
  refine ⟨Registration.retentive_of_isOwn own, ?_⟩
  induction events generalizing store with
  | nil => trivial
  | cons event rest ih =>
    cases event with
    | call call =>
      have advance := perform_advance store sound (Registration.retentive_of_isOwn own) call
      exact ih advance.sound (advance.isOwn.trans own)
    | moved roster =>
      have same : store.step (.moved roster) = store := by
        cases store with
        | mk settings registration journal slots params tags =>
          cases registration with
          | own runs => rfl
          | shared other => cases own
      rw [Unstruck, same]
      exact ⟨fun run known => known, ih sound own⟩

end Store

end RunMetrics

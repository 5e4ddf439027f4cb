import RunMetrics.Proofs.AppendLog
import RunMetrics.Proofs.LogbookCount
import RunMetrics.Proofs.OwnRuns
import RunMetrics.Proofs.WorkspaceStores

/-!
A logbook that many writers share. Stores record into it, each behind its own checks, and samples may be
appended to it directly. Whatever order the appends come in, the logbook holds one receipt for each that
it has taken; a store that never replays holds those of its receipts that it wrote itself.
-/

set_option autoImplicit false

namespace RunMetrics

open Snapshot (Row samplesOf)

/-! ### A store over a logbook -/

theorem Logbook.Took.append {l middle last : Logbook} {rows more : List Row}
    (first : l.Took middle rows) (second : middle.Took last more) : l.Took last (rows ++ more) := by
  induction first with
  | nil l => exact second
  | cons taken _ ih => exact .cons taken (ih second)

namespace Store

variable {ρ : Type} [Roster ρ]

/-- The rows that a call puts into the journal of a store: those it accepts, unless it replays them. -/
def journalled {σ : Type} [Journal σ] (store : Store ρ σ) (call : Call) : List Row :=
  if call.replays then [] else store.accepted call

theorem record_took {store : Store ρ AnyJournal} (sound : store.Sound) {l : Logbook}
    (here : store.journal = .logbook l) (run : String) (s : Sample) :
    ∃ next, (store.record run s).2.journal = .logbook next ∧
      l.Took next (rowsIfOk (store.record run s).1 [⟨run, s⟩]) := by
  have outcome := record_outcome store sound run s
  have answer : Journal.append store.journal run s =
      ((l.append run s).1, .logbook (l.append run s).2) := by
    rw [here]
    rfl
  generalize store.record run s = result at outcome ⊢
  cases outcome with
  | invalid _ => exact ⟨l, here, .nil l⟩
  | unknown _ _ => exact ⟨l, here, .nil l⟩
  | refused _ _ refused _ =>
    obtain ⟨failed, same⟩ := Prod.mk.inj (answer.symm.trans refused)
    have kept : (l.append run s).2 = l := Logbook.append_refused (Prod.ext failed rfl)
    rw [kept] at same
    exact ⟨l, same.symm, .nil l⟩
  | taken _ _ taken _ =>
    obtain ⟨success, same⟩ := Prod.mk.inj (answer.symm.trans taken)
    exact ⟨_, same.symm, .cons (Prod.ext success rfl) (.nil _)⟩

theorem recordAll_took {store : Store ρ AnyJournal} (sound : store.Sound) {l : Logbook}
    (here : store.journal = .logbook l) (run : String) (samples : List Sample) :
    ∃ next, (store.recordAll run samples).2.journal = .logbook next ∧
      l.Took next (store.recordedRows run samples) := by
  induction samples generalizing store l with
  | nil => exact ⟨l, here, .nil l⟩
  | cons s rest ih =>
    obtain ⟨middle, journal, first⟩ := record_took sound here run s
    have extended := record_extends store sound run s
    rw [recordedRows]
    rcases recorded : store.record run s with ⟨f | _, next⟩
    · rw [recorded] at journal first
      rw [recordAll_cons_of_error recorded]
      exact ⟨middle, journal, first⟩
    · rw [recorded] at journal first extended
      rw [recordAll_cons_of_ok recorded]
      obtain ⟨last, others, second⟩ := ih extended.sound journal
      exact ⟨last, others, first.append second⟩

theorem isOwn_recordAll (store : Store ρ AnyJournal) (run : String) (samples : List Sample) :
    (store.recordAll run samples).2.registration.isOwn = store.registration.isOwn := by
  obtain ⟨runs, journal, slots, same⟩ := recordAll_rest store run samples
  rw [same]
  exact Registration.isOwn_foldl_asked store.registration runs

/-- A call puts into the logbook what it records, and a replay puts nothing there. -/
theorem perform_took {store : Store ρ AnyJournal} (sound : store.Sound) {l : Logbook}
    (here : store.journal = .logbook l) (call : Call) :
    ∃ next, (store.perform call).2.journal = .logbook next ∧ l.Took next (store.journalled call) := by
  cases call with
  | record run s =>
    have entered : store.journalled (.record run s) = rowsIfOk (store.record run s).1 [⟨run, s⟩] :=
      (rowsIfOk_record store sound run s).symm
    rw [entered]
    exact record_took sound here run s
  | recordAll run samples => exact recordAll_took sound here run samples
  | setParam run name text =>
    refine ⟨l, ?_, .nil l⟩
    simp only [perform]
    unfold setParam
    split <;> exact here
  | setTag run name text =>
    refine ⟨l, ?_, .nil l⟩
    simp only [perform]
    unfold setTag
    split <;> exact here
  | replay h =>
    obtain ⟨registration, slots, same⟩ := replay_rest store h
    exact ⟨l, (congrArg Store.journal same).trans here, .nil l⟩
  | importSnapshot read =>
    obtain ⟨registration, slots, same⟩ := importSnapshot_rest store read
    exact ⟨l, (congrArg Store.journal same).trans here, .nil l⟩
  | replayJournal run key =>
    refine ⟨l, ?_, .nil l⟩
    have loaded : Journal.load store.journal run key = (.ok (l.log ⟨run, key⟩), AnyJournal.logbook l) := by
      rw [here]
      rfl
    simp only [perform, replayJournal, loaded]
    cases History.ofSamples run key (l.log ⟨run, key⟩) with
    | error f => rfl
    | ok h =>
      obtain ⟨registration, slots, same⟩ := replay_rest { store with journal := AnyJournal.logbook l } h
      exact congrArg Store.journal same
  | _ => exact ⟨l, here, .nil l⟩

end Store

namespace Workspace

/-! ### Acts of writers -/

/-- What writers do: a call on a store, or an append to a journal by its name. -/
inductive Act where
  | call (store : String) (call : Store.Call)
  | append (journal run : String) (sample : Sample)

/-- The workspace after an act; the same one if the store or the journal is not there. -/
def act (w : Workspace) : Act → Workspace
  | .call name call =>
    match w.call name call with
    | some (_, next) => next
    | none => w
  | .append journal run s =>
    match w.appendTo journal run s with
    | some (_, next) => next
    | none => w

/-- The workspace after acts in order. -/
def after (w : Workspace) (acts : List Act) : Workspace := acts.foldl act w

/-- That a journal took a row, and the store that recorded it, if one did. -/
structure Receipt where
  writer : Option String
  row : Row
deriving DecidableEq

/-- The receipts of an act from the journal of a number. -/
def receipts (w : Workspace) (number : Nat) : Act → List Receipt
  | .call name call =>
    match w.stores.get? name with
    | none => []
    | some kept =>
      if kept.journal = number then
        match w.assemble? kept with
        | none => []
        | some store => (store.journalled call).map (Receipt.mk (some name))
      else []
  | .append journal run s =>
    if w.journals.number? journal = some number then
      match w.appendTo journal run s with
      | some (.ok (), _) => [⟨none, run, s⟩]
      | _ => []
    else []

/-- The receipts of acts from the journal of a number, in order. -/
def receiptsDuring (w : Workspace) (number : Nat) : List Act → List Receipt
  | [] => []
  | act :: rest => w.receipts number act ++ (w.act act).receiptsDuring number rest

/-- The rows of receipts, in order. -/
def rowsTaken (receipts : List Receipt) : List Row := receipts.map Receipt.row

/-- The rows of the receipts of a store. -/
def rowsOfWriter (name : String) (receipts : List Receipt) : List Row :=
  rowsTaken (receipts.filter fun receipt => receipt.writer = some name)

theorem rowsTaken_append (first second : List Receipt) :
    rowsTaken (first ++ second) = rowsTaken first ++ rowsTaken second := List.map_append

theorem rowsOfWriter_append (name : String) (first second : List Receipt) :
    rowsOfWriter name (first ++ second) = rowsOfWriter name first ++ rowsOfWriter name second := by
  rw [rowsOfWriter, List.filter_append, rowsTaken_append, rowsOfWriter, rowsOfWriter]

theorem rowsTaken_map_mk (writer : Option String) (rows : List Row) :
    rowsTaken (rows.map (Receipt.mk writer)) = rows := by
  rw [rowsTaken, List.map_map]
  exact List.map_id rows

theorem rowsOfWriter_map_mk (name : String) (writer : Option String) (rows : List Row) :
    rowsOfWriter name (rows.map (Receipt.mk writer)) = if writer = some name then rows else [] := by
  rw [rowsOfWriter, List.filter_map]
  split
  · rename_i own
    simp only [Function.comp_def, own, decide_true, List.filter_true, rowsTaken_map_mk]
  · rename_i foreign
    simp [Function.comp_def, foreign, rowsTaken]

theorem Assembles.act_eq {w : Workspace} {kept : Store Nat Nat} {store : Store AnyRoster AnyJournal}
    (assembles : w.Assembles kept store) {name : String} (found : w.stores.get? name = some kept)
    (call : Store.Call) : w.act (.call name call) = w.putBack name kept (store.perform call).2 := by
  simp [act, Workspace.call, found, assemble?_eq_some_iff.2 assembles]

/-- A call does nothing if the store is not there or cannot be assembled. -/
theorem act_call (w : Workspace) (name : String) (call : Store.Call) :
    (w.act (.call name call) = w ∧ ∀ number, w.receipts number (.call name call) = []) ∨
      ∃ kept store, w.stores.get? name = some kept ∧ w.Assembles kept store ∧
        w.act (.call name call) = w.putBack name kept (store.perform call).2 ∧
        ∀ number, w.receipts number (.call name call) =
          if kept.journal = number then (store.journalled call).map (Receipt.mk (some name)) else [] := by
  cases found : w.stores.get? name with
  | none =>
    refine Or.inl ⟨?_, fun number => ?_⟩
    · simp [act, Workspace.call, found]
    · simp only [receipts, found]
  | some kept =>
    cases assembled : w.assemble? kept with
    | none =>
      refine Or.inl ⟨?_, fun number => ?_⟩
      · simp [act, Workspace.call, found, assembled]
      · simp only [receipts, found, assembled, ite_self]
    | some store =>
      have assembles := assemble?_eq_some_iff.1 assembled
      refine Or.inr ⟨kept, store, rfl, assembles, assembles.act_eq found call, fun number => ?_⟩
      simp only [receipts, found, assembled]

theorem act_append (w : Workspace) (journal run : String) (s : Sample) :
    (w.act (.append journal run s) = w ∧ ∀ number, w.receipts number (.append journal run s) = []) ∨
      ∃ other state, w.journals.number? journal = some other ∧ w.journals.get? other = some state ∧
        w.act (.append journal run s) = { w with journals := w.journals.set other (state.append run s).2 } ∧
        ∀ number, w.receipts number (.append journal run s) =
          if other = number then rowsIfOk (state.append run s).1 [⟨run, s⟩] |>.map (Receipt.mk none)
          else [] := by
  cases named : w.journals.number? journal with
  | none =>
    refine Or.inl ⟨?_, fun number => ?_⟩
    · simp [act, appendTo, named]
    · simp [receipts, named]
  | some other =>
    cases found : w.journals.get? other with
    | none =>
      refine Or.inl ⟨?_, fun number => ?_⟩
      · simp [act, appendTo, named, found]
      · simp [receipts, appendTo, named, found]
    | some state =>
      refine Or.inr ⟨other, state, rfl, found, ?_, fun number => ?_⟩
      · simp [act, appendTo, named, found]
      · simp only [receipts, named, Option.some.injEq]
        split
        · rcases answer : state.append run s with ⟨f | _, next⟩
          · simp [appendTo, named, found, answer, rowsIfOk]
          · simp [appendTo, named, found, answer, rowsIfOk]
        · rfl

/-! ### The shared logbook along acts -/

/-- The journal of the number is a logbook that has counted the receipts, and the stores over it are
sound. -/
structure Shared (w : Workspace) (number : Nat) (capacity : Option UInt64)
    (receipts : List Receipt) : Prop where
  logbook : ∃ l, w.journals.get? number = some (.logbook l) ∧ l.capacity = capacity ∧
    l.Counts (rowsTaken receipts)
  sound : ∀ name kept, w.stores.get? name = some kept → kept.journal = number →
    Slots.Sound kept.slots

variable {w : Workspace} {number : Nat} {capacity : Option UInt64} {receipts : List Receipt}

theorem Shared.sound_of_assembles (shared : w.Shared number capacity receipts) {name : String}
    {kept : Store Nat Nat} {store : Store AnyRoster AnyJournal} (found : w.stores.get? name = some kept)
    (mine : kept.journal = number) (assembles : w.Assembles kept store) : store.Sound := by
  rw [Store.Sound, assembles.slots]
  exact shared.sound name kept found mine

theorem Shared.act_call (shared : w.Shared number capacity receipts) (name : String)
    (call : Store.Call) :
    (w.act (.call name call)).Shared number capacity
      (receipts ++ w.receipts number (.call name call)) := by
  rcases w.act_call name call with ⟨same, nothing⟩ | ⟨kept, store, found, assembles, next, new⟩
  · rw [same, nothing, List.append_nil]
    exact shared
  · obtain ⟨l, here, kind, counts⟩ := shared.logbook
    rw [next, new]
    -- A store over another journal moves neither this one nor the stores over it.
    by_cases mine : kept.journal = number
    · have sound : store.Sound := shared.sound_of_assembles found mine assembles
      have state : store.journal = .logbook l :=
        Option.some.inj (assembles.journal.symm.trans (mine ▸ here))
      obtain ⟨last, journal, took⟩ := Store.perform_took sound state call
      obtain ⟨total, still⟩ := counts.took took
      rw [if_pos mine]
      refine ⟨⟨last, ?_, still.trans kind, ?_⟩, fun other present given ofNumber => ?_⟩
      · rw [putBack_journals, journal, mine, Pool.get?_set_self here]
      · rw [rowsTaken_append, rowsTaken_map_mk]
        exact total
      · rcases get?_putBack given with ⟨-, -, slots⟩ | ⟨-, before⟩
        · rw [slots]
          exact (Store.perform_extends_accepted store sound call).sound
        · exact shared.sound other present before ofNumber
    · rw [if_neg mine, List.append_nil]
      refine ⟨⟨l, ?_, kind, counts⟩, fun other present given ofNumber => ?_⟩
      · rw [putBack_journals, Pool.get?_set_of_ne mine]
        exact here
      · rcases get?_putBack given with ⟨-, journal, -⟩ | ⟨-, before⟩
        · exact absurd (journal.symm.trans ofNumber) mine
        · exact shared.sound other present before ofNumber

theorem Shared.act_append (shared : w.Shared number capacity receipts) (journal run : String)
    (s : Sample) :
    (w.act (.append journal run s)).Shared number capacity
      (receipts ++ w.receipts number (.append journal run s)) := by
  rcases w.act_append journal run s with ⟨same, nothing⟩ | ⟨other, state, -, found, next, new⟩
  · rw [same, nothing, List.append_nil]
    exact shared
  · obtain ⟨l, here, kind, counts⟩ := shared.logbook
    rw [next, new]
    by_cases mine : other = number
    · subst mine
      cases Option.some.inj (found.symm.trans here)
      rw [if_pos rfl]
      refine ⟨?_, shared.sound⟩
      simp only [AnyJournal.append, Pool.get?_set_self here]
      rcases answer : l.append run s with ⟨f | _, last⟩
      · rw [Logbook.append_refused answer]
        exact ⟨l, rfl, kind, by rwa [rowsIfOk, List.map_nil, List.append_nil]⟩
      · refine ⟨last, rfl, (Logbook.append_eq_ok answer).2.2.trans kind, ?_⟩
        rw [rowsTaken_append, rowsTaken_map_mk]
        exact counts.take answer
    · rw [if_neg mine, List.append_nil]
      exact ⟨⟨l, by rw [Pool.get?_set_of_ne mine, here], kind, counts⟩, shared.sound⟩

theorem Shared.act (shared : w.Shared number capacity receipts) (a : Act) :
    (w.act a).Shared number capacity (receipts ++ w.receipts number a) := by
  cases a with
  | call name call => exact shared.act_call name call
  | append journal run s => exact shared.act_append journal run s

theorem Shared.after (shared : w.Shared number capacity receipts) (acts : List Act) :
    (w.after acts).Shared number capacity (receipts ++ w.receiptsDuring number acts) := by
  induction acts generalizing w receipts with
  | nil =>
    rw [receiptsDuring, List.append_nil]
    exact shared
  | cons a rest ih =>
    rw [receiptsDuring, ← List.append_assoc]
    exact ih (shared.act a)

/-! ### What a writer finds again -/

/-- A store that has the name and is over the journal holds the samples of its own receipts. -/
def Wrote (w : Workspace) (name : String) (number : Nat) (receipts : List Receipt) : Prop :=
  ∀ kept, w.stores.get? name = some kept → kept.journal = number → ∀ series,
    (Slots.slotAt kept.slots series).history.samples = samplesOf series (rowsOfWriter name receipts)

theorem Shared.act_wrote (shared : w.Shared number capacity receipts) {name : String}
    (wrote : w.Wrote name number receipts) {a : Act}
    (recorded : ∀ call, a = .call name call → call.replays = false) :
    (w.act a).Wrote name number (receipts ++ w.receipts number a) := by
  have others (writer : Option String) (foreign : writer ≠ some name) (rows : List Row) :
      rowsOfWriter name (receipts ++ rows.map (Receipt.mk writer)) = rowsOfWriter name receipts := by
    rw [rowsOfWriter_append, rowsOfWriter_map_mk, if_neg foreign, List.append_nil]
  cases a with
  | call other call =>
    rcases w.act_call other call with ⟨same, nothing⟩ | ⟨kept, store, found, assembles, next, new⟩
    · rw [same, nothing, List.append_nil]
      exact wrote
    · rw [next, new]
      intro present given mine series
      rcases get?_putBack given with ⟨rfl, journal, slots⟩ | ⟨apart, before⟩
      · have ofNumber : kept.journal = number := journal.symm.trans mine
        have sound : store.Sound := shared.sound_of_assembles found ofNumber assembles
        have entered : store.journalled call = store.accepted call := by
          rw [Store.journalled, recorded call rfl, if_neg Bool.false_ne_true]
        have grown := (Store.perform_extends_accepted store sound call).slots.samples series
        rw [assembles.slots, wrote kept found ofNumber series] at grown
        rw [if_pos ofNumber, slots, grown, entered, rowsOfWriter_append, rowsOfWriter_map_mk,
          if_pos rfl, Snapshot.samplesOf_append]
      · rw [wrote present before mine series]
        split
        · rw [others _ fun same => apart (Option.some.inj same).symm]
        · rw [List.append_nil]
  | append journal run s =>
    rcases w.act_append journal run s with ⟨same, nothing⟩ | ⟨other, state, -, -, next, new⟩
    · rw [same, nothing, List.append_nil]
      exact wrote
    · rw [next, new]
      intro present given mine series
      rw [wrote present given mine series]
      split
      · rw [others none nofun]
      · rw [List.append_nil]

theorem Shared.after_wrote (shared : w.Shared number capacity receipts) {name : String}
    (wrote : w.Wrote name number receipts) {acts : List Act}
    (recorded : ∀ call, .call name call ∈ acts → call.replays = false) :
    (w.after acts).Wrote name number (receipts ++ w.receiptsDuring number acts) := by
  induction acts generalizing w receipts with
  | nil =>
    rw [receiptsDuring, List.append_nil]
    exact wrote
  | cons a rest ih =>
    rw [receiptsDuring, ← List.append_assoc]
    refine ih (shared.act a) (shared.act_wrote wrote fun call same => ?_) fun call member => ?_
    · exact recorded call (same ▸ List.mem_cons_self)
    · exact recorded call (List.mem_cons_of_mem _ member)

/-- A store shows the samples of its own receipts, which are a part of what the logbook holds. -/
theorem Wrote.history {name : String} (wrote : w.Wrote name number receipts) {kept : Store Nat Nat}
    {store : Store AnyRoster AnyJournal} (found : w.stores.get? name = some kept)
    (mine : kept.journal = number) (assembles : w.Assembles kept store) {l : Logbook}
    (counts : l.Counts (rowsTaken receipts)) {run : String} (known : store.knows run = true)
    (key : String) :
    ∃ h, store.history run key = .ok h ∧
      h.samples = samplesOf ⟨run, key⟩ (rowsOfWriter name receipts) ∧
      h.samples.Sublist (l.log ⟨run, key⟩) := by
  have samples := wrote kept found mine ⟨run, key⟩
  rw [← assembles.slots] at samples
  refine ⟨(store.slot ⟨run, key⟩).history, ?_, samples, ?_⟩
  · rw [Store.history_eq, Store.answerFor_of_known known]
  · change (Slots.slotAt store.slots ⟨run, key⟩).history.samples.Sublist _
    rw [samples, counts.log]
    exact ((List.filter_sublist.map Receipt.row).filter _).map Row.sample

/-! ### Access without a store -/

section Direct

variable {journal : String} {l : Logbook} (named : w.journals.number? journal = some number)
  (here : w.journals.get? number = some (.logbook l))

include named here

theorem loadFrom_of_logbook (run key : String) :
    w.loadFrom journal run key = some (.ok (l.log ⟨run, key⟩), w) := by
  simp [loadFrom, named, here, AnyJournal.load, Pool.set_eq_self here]

theorem appendTo_of_logbook (run : String) (s : Sample) :
    w.appendTo journal run s = some ((l.append run s).1,
      { w with journals := w.journals.set number (.logbook (l.append run s).2) }) := by
  simp [appendTo, named, here, AnyJournal.append]

theorem act_append_of_refused {run : String} {s : Sample} {f : Failure}
    (refused : l.append run s = (.error f, l)) : w.act (.append journal run s) = w := by
  simp [Workspace.act, appendTo_of_logbook named here, refused, Pool.set_eq_self here]

end Direct

/-! ### Batches -/

/-- A batch is as many calls that record one sample as it takes to come to the end or to a refusal. -/
theorem Assembles.putBack_recordAll {kept : Store Nat Nat} {store : Store AnyRoster AnyJournal}
    (assembles : w.Assembles kept store) {name : String} (found : w.stores.get? name = some kept)
    (run : String) (samples : List Sample) :
    ∃ part, part <+: samples ∧ w.putBack name kept (store.recordAll run samples).2 =
      w.after (part.map fun s => .call name (.record run s)) := by
  induction samples generalizing w kept store with
  | nil => exact ⟨[], List.prefix_rfl, assembles.putBack_eq found⟩
  | cons s rest ih =>
    obtain ⟨asked, journal, slots, same⟩ := Store.record_rest store run s
    have settings : (store.record run s).2.settings = store.settings := by
      rw [same]
      rfl
    have isOwn : (store.record run s).2.registration.isOwn = store.registration.isOwn := by
      rw [same]
      exact Registration.isOwn_foldl_asked store.registration asked
    have once : w.act (.call name (.record run s)) = w.putBack name kept (store.record run s).2 :=
      assembles.act_eq found (.record run s)
    rcases recorded : store.record run s with ⟨f | _, next⟩
    · rw [recorded] at once
      rw [Store.recordAll_cons_of_error recorded]
      exact ⟨[s], List.prefix_append [s] rest, once.symm⟩
    · rw [recorded] at once settings isOwn
      obtain ⟨put, present, assembled, overwritten⟩ := assembles.putBack name settings isOwn
      -- What the first sample puts back is assembled for the rest, and overwritten by it.
      obtain ⟨part, start, others⟩ := ih assembled present
      refine ⟨s :: part, List.cons_prefix_cons.2 ⟨rfl, start⟩, ?_⟩
      rw [Store.recordAll_cons_of_ok recorded, ← overwritten _ (next.isOwn_recordAll run rest), others,
        ← once]
      rfl

/-- However writers take turns, a logbook that they share stays in step with the receipts: one for each
append that was accepted, made directly or by a store, in order. It refuses an append when it is full,
and only then, and does not change by that; a store passes its answer on for every valid sample of a
known run. The history of a metric in a store that never replays is what its own receipts say, a part of
what the logbook holds of the metric. A batch is several calls that record one sample, so other writers
may also come between those. -/
theorem shared_logbook_stays_in_step (w : Workspace) (number : Nat) (capacity : Option UInt64)
    (fresh : w.journals.get? number = some (.logbook (.empty capacity)))
    (unused : ∀ name kept, w.stores.get? name = some kept → kept.journal = number →
      kept.slots = Table.empty)
    (acts : List Act) :
    let later := w.after acts
    let receipts := w.receiptsDuring number acts
    ∃ l, later.journals.get? number = some (.logbook l) ∧ l.capacity = capacity ∧
      l.InStep (rowsTaken receipts) ∧
      (∀ journal, later.journals.number? journal = some number →
        (∀ run key, later.loadFrom journal run key = some (.ok (l.log ⟨run, key⟩), later)) ∧
          ∀ run s, (later.appendTo journal run s).map Prod.fst = some (l.append run s).1 ∧
            (l.size = l.limit → later.act (.append journal run s) = later)) ∧
      (∀ name kept store, later.stores.get? name = some kept → kept.journal = number →
        later.store? name = some store →
          (∀ run s, s.check store.settings.allowNegative = .ok () → store.knows run = true →
            (store.record run s).1 = (l.append run s).1 ∧
              (store.record run s).2.journal = .logbook (l.append run s).2) ∧
            ((∀ call, .call name call ∈ acts → call.replays = false) →
              ∀ run key, store.knows run = true → ∃ h, store.history run key = .ok h ∧
                h.samples = samplesOf ⟨run, key⟩ (rowsOfWriter name receipts) ∧
                h.samples.Sublist (l.log ⟨run, key⟩))) ∧
      ∀ name run samples, ∃ part, part <+: samples ∧
        later.act (.call name (.recordAll run samples)) =
          later.after (part.map fun s => .call name (.record run s)) := by
  intro later receipts
  have start : w.Shared number capacity [] := by
    refine ⟨⟨_, fresh, rfl, Logbook.empty_counts capacity⟩, fun name kept found mine => ?_⟩
    rw [unused name kept found mine]
    exact Slots.empty_sound
  have shared : later.Shared number capacity receipts := start.after acts
  obtain ⟨l, here, kind, counts⟩ := shared.logbook
  refine ⟨l, here, kind, counts.inStep, ?_, ?_, ?_⟩
  · intro journal named
    refine ⟨loadFrom_of_logbook named here, fun run s => ⟨?_, fun full => ?_⟩⟩
    · rw [appendTo_of_logbook named here]
      rfl
    · have refused := counts.append_eq run s
      rw [if_pos full] at refused
      exact act_append_of_refused named here refused
  · intro name kept store found mine given
    have assembles : later.Assembles kept store := by
      rw [store?, found] at given
      exact assemble?_eq_some_iff.1 given
    have state : store.journal = .logbook l :=
      Option.some.inj (assembles.journal.symm.trans (mine ▸ here))
    have sound : store.Sound := shared.sound_of_assembles found mine assembles
    refine ⟨fun run s valid known => ?_, fun recorded run key known => ?_⟩
    · have both := Store.record_of_known store sound run s valid known
      rw [state] at both
      exact both
    · have wrote : later.Wrote name number receipts := by
        refine start.after_wrote (fun kept found mine series => ?_) recorded
        rw [unused name kept found mine]
        rfl
      exact wrote.history found mine assembles counts known key
  · intro name run samples
    rcases later.act_call name (.recordAll run samples) with
      ⟨same, -⟩ | ⟨kept, store, found, assembles, next, -⟩
    · exact ⟨[], List.nil_prefix, same⟩
    · obtain ⟨part, first, single⟩ := assembles.putBack_recordAll found run samples
      exact ⟨part, first, next.trans single⟩

/-- Two stores and a direct append at a logbook for two samples: the second store comes too late. -/
theorem shared_logbook_of_two_samples :
    let loss (step : Int64) : Sample := ⟨"loss", ⟨0⟩, 0, step⟩
    let kept : Store Nat Nat := Store.empty {} (.own (RunSet.ofList ["run"])) 0
    let w : Workspace := ⟨(Table.empty.insert "first" kept).insert "second" kept, .empty,
      Pool.empty.define "log" (.logbook (.empty (some 2))), .empty⟩
    let later := w.after [.call "first" (.record "run" (loss 1)), .append "log" "run" (loss 2),
      .call "second" (.recordAll "run" [loss 3, loss 4])]
    ∃ l, later.journals.get? 0 = some (.logbook l) ∧ l.size = 2 ∧
      l.log ⟨"run", "loss"⟩ = [loss 1, loss 2] ∧
      later.act (.append "log" "run" (loss 5)) = later ∧
      ∃ store h, later.store? "first" = some store ∧ store.history "run" "loss" = .ok h ∧
        h.samples = [loss 1] := by
  intro loss kept w later
  have unused : ∀ name put, w.stores.get? name = some put → put.journal = 0 →
      put.slots = Table.empty := by
    intro name put found _
    change ((Table.empty.insert "first" kept).insert "second" kept).get? name = some put at found
    simp only [Table.get?_insert, Table.get?_empty] at found
    split at found
    · cases found
      rfl
    · split at found
      · cases found
        rfl
      · cases found
  obtain ⟨l, here, kind, inStep, direct, stores, -⟩ := shared_logbook_stays_in_step w 0 (some 2) rfl
    unused [.call "first" (.record "run" (loss 1)), .append "log" "run" (loss 2),
      .call "second" (.recordAll "run" [loss 3, loss 4])]
  have size : l.size = 2 := inStep.counted.trans (by decide)
  have full : l.size = l.limit := by
    rw [size, Logbook.limit, kind]
    rfl
  have known : (later.store? "first").map (fun store => store.knows "run") = some true := by decide
  obtain ⟨store, given, knows⟩ := Option.map_eq_some_iff.1 known
  have journal : (later.stores.get? "first").map Store.journal = some 0 := by decide
  obtain ⟨put, found, mine⟩ := Option.map_eq_some_iff.1 journal
  obtain ⟨h, shown, samples, -⟩ := (stores "first" put store found mine given).2
    (by simp [Store.Call.replays]) "run" "loss" knows
  refine ⟨l, here, size, (inStep.log _).trans (by decide), ?_, store, h, given, shown,
    samples.trans (by decide)⟩
  exact ((direct "log" (by decide)).2 "run" (loss 5)).2 full

end Workspace

end RunMetrics

import RunMetrics.Proofs.StoreViews
import RunMetrics.Store.Call

/-!
Stores that no calls can tell apart. They may differ in slots without samples, and in what cannot be
seen of the roster; every call gives them the same reply and leaves them alike.
-/

set_option autoImplicit false

namespace RunMetrics

open Snapshot (Row)

namespace Roster

/-- What a roster may be asked to do. -/
inductive Request where
  | contains (run : String)
  | register (run : String)

variable {ρ : Type} [Roster ρ]

/-- The answers to requests, one after the other. -/
def answers (r : ρ) : List Request → List Bool
  | [] => []
  | .contains run :: rest => contains r run :: answers (asked r run) rest
  | .register run :: rest => (register r run).1 :: answers (register r run).2 rest

/-- No requests tell the rosters apart. -/
def Alike (r s : ρ) : Prop := ∀ requests, answers r requests = answers s requests

theorem Alike.contains_eq {r s : ρ} (alike : Alike r s) (run : String) :
    contains r run = contains s run := (List.cons.inj (alike [.contains run])).1

theorem Alike.asked {r s : ρ} (alike : Alike r s) (run : String) :
    Alike (asked r run) (asked s run) :=
  fun requests => (List.cons.inj (alike (.contains run :: requests))).2

theorem Alike.register_fst {r s : ρ} (alike : Alike r s) (run : String) :
    (register r run).1 = (register s run).1 := (List.cons.inj (alike [.register run])).1

theorem Alike.register_snd {r s : ρ} (alike : Alike r s) (run : String) :
    Alike (register r run).2 (register s run).2 :=
  fun requests => (List.cons.inj (alike (.register run :: requests))).2

end Roster

namespace Registration

variable {ρ : Type} [Roster ρ]

/-- The same runs, if registration is the store's own; otherwise rosters that are alike. -/
inductive Alike : Registration ρ → Registration ρ → Prop where
  | own (runs : RunSet) : Alike (.own runs) (.own runs)
  | shared {r s : ρ} (alike : Roster.Alike r s) : Alike (.shared r) (.shared s)

variable {r s : Registration ρ}

theorem Alike.refl (r : Registration ρ) : Alike r r := by
  cases r with
  | own runs => exact .own runs
  | shared roster => exact .shared fun _ => rfl

theorem Alike.trans {t : Registration ρ} (first : Alike r s) (second : Alike s t) : Alike r t := by
  cases first with
  | own runs => exact second
  | shared alike =>
    cases second with
    | shared further => exact .shared fun requests => (alike requests).trans (further requests)

theorem Alike.contains (alike : Alike r s) (run : String) : r.contains run = s.contains run := by
  cases alike with
  | own runs => rfl
  | shared alike => exact alike.contains_eq run

theorem Alike.isOwn (alike : Alike r s) : r.isOwn = s.isOwn := by
  cases alike <;> rfl

theorem Alike.asked (alike : Alike r s) (run : String) : Alike (r.asked run) (s.asked run) := by
  cases alike with
  | own runs => exact .own runs
  | shared alike => exact .shared (alike.asked run)

theorem Alike.enrol (alike : Alike r s) (run : String) : Alike (r.enrol run) (s.enrol run) := by
  cases alike with
  | own runs => exact .own _
  | shared alike => exact .shared alike

theorem Alike.moved (alike : Alike r s) (roster : ρ) : Alike (r.moved roster) (s.moved roster) := by
  cases alike with
  | own runs => exact .own runs
  | shared alike => exact .shared fun _ => rfl

theorem Alike.register (alike : Alike r s) (run : String) :
    (r.register run).1 = (s.register run).1 ∧ Alike (r.register run).2 (s.register run).2 := by
  cases alike with
  | own runs => exact ⟨rfl, .own _⟩
  | shared alike => exact ⟨alike.register_fst run, .shared (alike.register_snd run)⟩

end Registration

/-- Slots that grow by the same rows stay the same. -/
theorem Slots.Grown.slotAt_eq {a b c d : Slots} {rows : List Row} (left : Slots.Grown a c rows)
    (right : Slots.Grown b d rows) (same : ∀ series, a.slotAt series = b.slotAt series)
    (series : Series) : c.slotAt series = d.slotAt series := by
  apply (left.sound.slotAt series).eq_of_samples_eq (right.sound.slotAt series)
  rw [left.samples, right.samples, same series]

namespace Store

variable {ρ σ : Type} [Roster ρ]

/-- The stores show the same. -/
structure Looks (a b : Store ρ σ) : Prop where
  left : a.Sound
  right : b.Sound
  knows : ∀ run, a.knows run = b.knows run
  slot : ∀ series, a.slot series = b.slot series
  params : a.params = b.params
  tags : a.tags = b.tags

/-- No calls tell the stores apart. -/
structure Alike (a b : Store ρ σ) : Prop where
  left : a.Sound
  right : b.Sound
  settings : a.settings = b.settings
  registration : Registration.Alike a.registration b.registration
  journal : a.journal = b.journal
  slot : ∀ series, a.slot series = b.slot series
  params : a.params = b.params
  tags : a.tags = b.tags

variable {a b : Store ρ σ}

/-! ### Views -/

theorem Looks.answerFor (looks : Looks a b) {α : Type} (run : String) (answer : α) :
    a.answerFor run answer = b.answerFor run answer := by
  rw [Store.answerFor, looks.knows run, Store.answerFor]

theorem Looks.shown (looks : Looks a b) (run : String) : a.shown run = b.shown run := by
  rw [Store.shown, Slots.live_eq_of_slotAt_eq looks.slot, Store.shown]

theorem Alike.looks (alike : Alike a b) : Looks a b where
  left := alike.left
  right := alike.right
  knows := alike.registration.contains
  slot := alike.slot
  params := alike.params
  tags := alike.tags

/-! ### Changes of one part -/

theorem Alike.asked (alike : Alike a b) (run : String) : Alike (a.asked run) (b.asked run) :=
  { alike with registration := alike.registration.asked run }

theorem Alike.logged (alike : Alike a b) (journal : σ) :
    Alike { a with journal } { b with journal } :=
  { alike with journal := rfl }

theorem Alike.enrol (alike : Alike a b) (run : String) :
    Alike { a with registration := a.registration.enrol run }
      { b with registration := b.registration.enrol run } :=
  { alike with registration := alike.registration.enrol run }

theorem Alike.grow (alike : Alike a b) {slots more : Slots} {rows : List Row}
    (left : Slots.Grown a.slots slots rows) (right : Slots.Grown b.slots more rows) :
    Alike { a with slots } { b with slots := more } :=
  { alike with
    left := left.sound
    right := right.sound
    slot := left.slotAt_eq right alike.slot }

/-! ### Operations -/

/-- One answer, and stores that are alike. -/
structure Agree {α : Type} (x y : Except Failure α × Store ρ σ) : Prop where
  answer : x.1 = y.1
  stores : Alike x.2 y.2

theorem Agree.andThen {α β : Type} {x y : Except Failure α × Store ρ σ}
    {f g : α → Store ρ σ → Except Failure β × Store ρ σ} (agree : Agree x y)
    (next : ∀ answer s t, Alike s t → Agree (f answer s) (g answer t)) :
    Agree (Store.andThen x f) (Store.andThen y g) := by
  obtain ⟨outcome, s⟩ := x
  obtain ⟨outcome', t⟩ := y
  obtain ⟨answer, stores⟩ := agree
  simp only at answer stores
  subst answer
  cases outcome with
  | error failure => exact ⟨rfl, stores⟩
  | ok answer => exact next answer s t stores

theorem Agree.map {α β : Type} {x y : Except Failure α × Store ρ σ} (agree : Agree x y)
    (f : α → β) : Agree (x.1.map f, x.2) (y.1.map f, y.2) :=
  ⟨congrArg (Except.map f) agree.answer, agree.stores⟩

theorem Alike.setParam (alike : Alike a b) (run name text : String) :
    Agree (a.setParam run name text) (b.setParam run name text) := by
  have known := alike.looks.knows run
  unfold Store.setParam requireRun
  rw [← known, ← alike.params]
  cases a.knows run with
  | false => exact ⟨rfl, alike.asked run⟩
  | true => exact ⟨rfl, { alike.asked run with params := rfl }⟩

theorem Alike.setTag (alike : Alike a b) (run name text : String) :
    Agree (a.setTag run name text) (b.setTag run name text) := by
  have known := alike.looks.knows run
  unfold Store.setTag requireRun
  rw [← known, ← alike.tags]
  cases a.knows run with
  | false => exact ⟨rfl, alike.asked run⟩
  | true => exact ⟨rfl, { alike.asked run with tags := rfl }⟩

theorem Alike.checkReplay (alike : Alike a b) (h : History) :
    Agree (a.checkReplay h) (b.checkReplay h) := by
  have known := alike.looks.knows h.run
  unfold Store.checkReplay requireRun
  rw [← known, ← alike.settings, ← alike.registration.isOwn]
  cases h.samples.forM fun s => s.check a.settings.allowNegative with
  | error f => exact ⟨rfl, alike⟩
  | ok =>
    cases a.registration.isOwn with
    | true => exact ⟨rfl, alike⟩
    | false => exact ⟨rfl, alike.asked h.run⟩

theorem Alike.replay (alike : Alike a b) (h : History) : Agree (a.replay h) (b.replay h) := by
  have checked := alike.checkReplay h
  cases passed : (a.checkReplay h).1 with
  | error f =>
    rw [replay_of_refused a h passed, replay_of_refused b h (checked.answer ▸ passed)]
    exact ⟨rfl, checked.stores⟩
  | ok =>
    obtain ⟨slots, replayed, grown⟩ := replay_of_admitted a alike.left h passed
    obtain ⟨more, replayed', grown'⟩ :=
      replay_of_admitted b alike.right h (checked.answer ▸ passed)
    obtain ⟨runs, asked⟩ := checkReplay_snd a h
    obtain ⟨runs', asked'⟩ := checkReplay_snd b h
    rw [replayed, replayed']
    have stores := checked.stores
    rw [asked, asked'] at stores ⊢
    exact ⟨rfl, (stores.enrol h.run).grow grown grown'⟩

theorem Alike.checkAll (alike : Alike a b) (histories : List History) :
    Agree (a.checkAll histories) (b.checkAll histories) := by
  induction histories generalizing a b with
  | nil => exact ⟨rfl, alike⟩
  | cons h rest ih =>
    rw [checkAll_cons, checkAll_cons]
    exact (alike.checkReplay h).andThen fun _ _ _ next => ih next

theorem Alike.replayAll (alike : Alike a b) (histories : List History) :
    Agree (a.replayAll histories) (b.replayAll histories) := by
  induction histories generalizing a b with
  | nil => exact ⟨rfl, alike⟩
  | cons h rest ih =>
    rw [replayAll_cons, replayAll_cons]
    exact (alike.replay h).andThen fun _ _ _ next =>
      (ih next).andThen fun _ _ _ last => ⟨rfl, last⟩

theorem Alike.importSnapshot (alike : Alike a b)
    (read : Except Failure (List Snapshot.Batch)) :
    Agree (a.importSnapshot read) (b.importSnapshot read) := by
  cases read with
  | error f => exact ⟨rfl, alike⟩
  | ok batches =>
    change Agree (a.importBatches batches) (b.importBatches batches)
    cases grouped : Snapshot.histories batches with
    | error f =>
      simp only [importBatches, grouped]
      exact ⟨rfl, alike⟩
    | ok histories =>
      rw [importBatches_of_histories a grouped, importBatches_of_histories b grouped]
      exact (alike.checkAll histories).andThen fun _ _ _ next => next.replayAll histories

variable [Journal σ]

theorem Alike.record (alike : Alike a b) (run : String) (s : Sample) :
    Agree (a.record run s) (b.record run s) := by
  cases valid : s.check a.settings.allowNegative with
  | error f =>
    rw [record_of_invalid a run s valid, record_of_invalid b run s (alike.settings ▸ valid)]
    exact ⟨rfl, alike⟩
  | ok =>
    have valid' : s.check b.settings.allowNegative = .ok () := alike.settings ▸ valid
    have same := alike.looks.knows run
    cases known : a.knows run with
    | false =>
      rw [record_of_unknown a run s valid known, record_of_unknown b run s valid' (same ▸ known)]
      exact ⟨rfl, alike.asked run⟩
    | true =>
      have known' : b.knows run = true := same ▸ known
      rcases answer : Journal.append a.journal run s with ⟨f | _, journal⟩
      · obtain ⟨slots, recorded, grown⟩ := record_of_refused a alike.left run s valid known answer
        obtain ⟨more, recorded', grown'⟩ :=
          record_of_refused b alike.right run s valid' known' (alike.journal ▸ answer)
        rw [recorded, recorded']
        exact ⟨rfl, ((alike.asked run).logged journal).grow grown grown'⟩
      · obtain ⟨slots, recorded, grown⟩ := record_of_taken a alike.left run s valid known answer
        obtain ⟨more, recorded', grown'⟩ :=
          record_of_taken b alike.right run s valid' known' (alike.journal ▸ answer)
        rw [recorded, recorded']
        exact ⟨rfl, ((alike.asked run).logged journal).grow grown grown'⟩

theorem Alike.recordAll (alike : Alike a b) (run : String) (samples : List Sample) :
    Agree (a.recordAll run samples) (b.recordAll run samples) := by
  induction samples generalizing a b with
  | nil => exact ⟨rfl, alike⟩
  | cons s rest ih =>
    rw [recordAll_cons, recordAll_cons]
    exact (alike.record run s).andThen fun _ _ _ next =>
      (ih next).andThen fun _ _ _ last => ⟨rfl, last⟩

theorem Alike.replayJournal (alike : Alike a b) (run key : String) :
    Agree (a.replayJournal run key) (b.replayJournal run key) := by
  unfold Store.replayJournal
  rw [← alike.journal]
  rcases Journal.load a.journal run key with ⟨f | samples, journal⟩
  · exact ⟨rfl, alike.logged journal⟩
  · simp only
    cases History.ofSamples run key samples with
    | error f => exact ⟨rfl, alike.logged journal⟩
    | ok h => exact (alike.logged journal).replay h

/-! ### Calls -/

/-- Whether a call only asks. -/
def Call.isRead : Call → Bool
  | .knows _ => true
  | .summary _ _ => true
  | .history _ _ => true
  | .snapshot _ _ => true
  | .keys _ => true
  | .histories _ => true
  | .overview _ => true
  | .rows _ => true
  | .drifted => true
  | _ => false

theorem Looks.read (looks : Looks a b) {call : Call} (read : call.isRead = true) :
    (a.perform call).1 = (b.perform call).1 := by
  cases call with
  | knows run => simp only [perform, looks.knows run]
  | summary run key => simp only [perform, summary_eq, looks.slot, looks.answerFor]
  | history run key => simp only [perform, history_eq, looks.slot, looks.answerFor]
  | snapshot run key => simp only [perform, snapshot_eq, looks.slot, looks.answerFor]
  | keys run => simp only [perform, keys_eq, looks.shown, looks.answerFor]
  | histories run => simp only [perform, histories_eq, looks.shown, looks.answerFor]
  | overview run =>
    simp only [perform, looks.left.overview_eq, looks.right.overview_eq, looks.shown, looks.params,
      looks.tags, looks.answerFor]
  | rows run =>
    simp only [perform, looks.left.rows_eq, looks.right.rows_eq, looks.shown, looks.answerFor]
  | drifted => simp only [perform, looks.left.drifted_eq_nil, looks.right.drifted_eq_nil]
  | _ => cases read

/-- Every call gives stores that are alike one reply, and leaves them alike. -/
theorem Alike.perform (alike : Alike a b) (call : Call) :
    Agree (a.perform call) (b.perform call) := by
  cases call with
  | register run =>
    obtain ⟨answer, registered⟩ := alike.registration.register run
    exact ⟨congrArg (fun flag => Except.ok (Reply.flag flag)) answer,
      { alike with registration := registered }⟩
  | record run s => exact (alike.record run s).map _
  | recordAll run samples => exact (alike.recordAll run samples).map _
  | setParam run name text => exact (alike.setParam run name text).map _
  | setTag run name text => exact (alike.setTag run name text).map _
  | replay h => exact (alike.replay h).map _
  | replayJournal run key => exact (alike.replayJournal run key).map _
  | importSnapshot read => exact (alike.importSnapshot read).map _
  | knows run | summary run _ | history run _ | snapshot run _ | keys run | histories run
  | overview run | rows run => exact ⟨alike.looks.read rfl, alike.asked run⟩
  | drifted => exact ⟨alike.looks.read rfl, alike⟩

theorem Alike.replies_eq (alike : Alike a b) (events : List (Event ρ)) :
    a.replies events = b.replies events := by
  induction events generalizing a b with
  | nil => rfl
  | cons event rest ih =>
    cases event with
    | call call =>
      have agree := alike.perform call
      rw [replies, replies, agree.answer, ih agree.stores]
    | moved roster =>
      exact ih { alike with registration := alike.registration.moved roster }

end Store

end RunMetrics

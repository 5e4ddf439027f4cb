import RunMetrics.Proofs.FailedCalls
import RunMetrics.Proofs.Interleaving
import RunMetrics.Proofs.RunNotes
import RunMetrics.Workspace

/-!
Writers that do not meet. Samples of one metric, values of one param and values of one tag each have a
lane of their own. While all runs are known and the journal has room, the reply to a write depends on
the write alone, and what a store holds in a lane depends on the writes of that lane in their order; so
all interleavings of the same lanes give the same replies and leave stores that look the same.
-/

set_option autoImplicit false

namespace RunMetrics

open Snapshot (Row rowsOf samplesOf)

/-! ### Journals with room -/

namespace AnyJournal

/-- The journal takes as many more samples as given: it keeps none, or has no capacity and does not
come to the end of its counter. -/
def Ample : AnyJournal → Nat → Prop
  | .silent, _ => True
  | .logbook l, n => l.capacity = none ∧ l.held + n ≤ l.limit
  | .scripted _, _ => False

/-- The journal has taken rows: it keeps none, or has them all behind those it had. -/
inductive Took : AnyJournal → AnyJournal → List Row → Prop where
  | silent (rows : List Row) : Took .silent .silent rows
  | logbook {l next : Logbook} {rows : List Row}
    (log : ∀ series, next.log series = l.log series ++ samplesOf series rows) :
    Took (.logbook l) (.logbook next) rows

theorem Ample.mono {j : AnyJournal} {m n : Nat} (ample : j.Ample n) (less : m ≤ n) : j.Ample m := by
  cases j with
  | silent => trivial
  | logbook l => exact ⟨ample.1, by have := ample.2; omega⟩
  | scripted j => exact ample

theorem Ample.took_nil {j : AnyJournal} {n : Nat} (ample : j.Ample n) : Took j j [] := by
  cases j with
  | silent => exact .silent []
  | logbook l => exact .logbook fun series => (List.append_nil _).symm
  | scripted j => exact ample.elim

theorem Ample.append {j : AnyJournal} {n : Nat} (ample : j.Ample (n + 1)) (run : String)
    (s : Sample) :
    ∃ next, Journal.append j run s = (.ok (), next) ∧ next.Ample n ∧ Took j next [⟨run, s⟩] := by
  cases j with
  | silent => exact ⟨.silent, rfl, trivial, .silent _⟩
  | logbook l =>
    obtain ⟨unbounded, room⟩ := ample
    have below : l.held < l.limit := by omega
    have answer := Logbook.append_of_room below run s
    refine ⟨.logbook (l.append run s).2, ?_, ?_, .logbook (Logbook.log_of_taken answer)⟩
    · exact congrArg (fun outcome => (outcome, AnyJournal.logbook (l.append run s).2))
        (congrArg Prod.fst answer)
    · rw [Logbook.append, if_pos below]
      refine ⟨unbounded, ?_⟩
      change l.held + 1 + n ≤ l.limit
      omega
  | scripted j => exact ample.elim

theorem Took.trans {j next last : AnyJournal} {rows more : List Row} (first : Took j next rows)
    (second : Took next last more) : Took j last (rows ++ more) := by
  cases first with
  | silent =>
    cases second with
    | silent => exact .silent _
  | logbook log =>
    cases second with
    | logbook further =>
      refine .logbook fun series => ?_
      rw [further, log, List.append_assoc, Snapshot.samplesOf_append]

/-- What is loaded of a metric depends on the samples taken of it. -/
theorem Took.load_eq {j first second : AnyJournal} {rows more : List Row} (left : Took j first rows)
    (right : Took j second more)
    (same : ∀ series, samplesOf series rows = samplesOf series more) (run key : String) :
    (Journal.load first run key).1 = (Journal.load second run key).1 := by
  cases left with
  | silent =>
    cases right with
    | silent => rfl
  | logbook log =>
    cases right with
    | logbook further =>
      change Except.ok _ = Except.ok _
      rw [log, further, same]

end AnyJournal

namespace Store

/-! ### Writes and their lanes -/

/-- Where a write goes: one metric, or one name among the params or the tags of a run. -/
inductive Lane where
  | metric (series : Series)
  | note (book : Notebook) (run name : String)
deriving DecidableEq

def Lane.run : Lane → String
  | .metric series => series.run
  | .note _ run _ => run

/-- A call that writes in one lane. -/
inductive Write where
  | record (run : String) (sample : Sample)
  | replay (history : History)
  | note (book : Notebook) (run name text : String)

namespace Write

def call : Write → Call
  | .record run s => .record run s
  | .replay h => .replay h
  | .note .params run name text => .setParam run name text
  | .note .tags run name text => .setTag run name text

def event {ρ : Type} (w : Write) : Event ρ := .call w.call

def lane : Write → Lane
  | .record run s => .metric ⟨run, s.key⟩
  | .replay h => .metric h.series
  | .note book run name _ => .note book run name

/-- Whether the write may need room in the journal. -/
def records : Write → Bool
  | .record _ _ => true
  | _ => false

/-- The reply to a write whose run is known and for which the journal has room. -/
def verdict (settings : Settings) : Write → Except Failure Reply
  | .record _ s => (s.check settings.allowNegative).map fun _ => .done
  | .replay h =>
    (h.samples.forM fun s => s.check settings.allowNegative).map fun _ => .count h.size
  | .note _ _ _ _ => .ok .done

/-- The rows that a write adds to the slots. -/
def rows (settings : Settings) : Write → List Row
  | .record run s => rowsIfOk (s.check settings.allowNegative) [⟨run, s⟩]
  | .replay h => rowsIfOk (h.samples.forM fun s => s.check settings.allowNegative) (rowsOf [h])
  | .note _ _ _ _ => []

/-- The rows that a write puts into the journal. -/
def recorded (settings : Settings) (w : Write) : List Row :=
  if w.records then w.rows settings else []

/-- The notes of one kind after a write. -/
def noteIn (book : Notebook) (notes : Notes) : Write → Notes
  | .note other run name text => if other = book then notes.set run name text else notes
  | _ => notes

theorem mem_of_mem_rowsIfOk {outcome : Except Failure Unit} {rows : List Row} {row : Row}
    (member : row ∈ rowsIfOk outcome rows) : row ∈ rows := by
  cases outcome with
  | ok => exact member
  | error f => cases member

theorem mem_rows_lane {settings : Settings} {w : Write} {row : Row}
    (member : row ∈ w.rows settings) : w.lane = .metric row.series := by
  cases w with
  | record run s =>
    rw [List.mem_singleton.1 (mem_of_mem_rowsIfOk member)]
    rfl
  | replay h =>
    rw [Snapshot.series_of_mem_rowsOf (mem_of_mem_rowsIfOk member)]
    rfl
  | note book run name text => cases member

theorem mem_recorded_lane {settings : Settings} {w : Write} {row : Row}
    (member : row ∈ w.recorded settings) : w.lane = .metric row.series := by
  unfold recorded at member
  split at member
  · exact mem_rows_lane member
  · cases member

/-- The samples that a metric gets depend on the writes of its own lane. -/
theorem samplesOf_flatMap {rows : Write → List Row}
    (inside : ∀ w, ∀ row ∈ rows w, w.lane = .metric row.series) (series : Series)
    (writes : List Write) :
    samplesOf series (writes.flatMap rows) =
      samplesOf series ((writes.filter fun w => w.lane = .metric series).flatMap rows) := by
  induction writes with
  | nil => rfl
  | cons w rest ih =>
    rw [List.flatMap_cons, Snapshot.samplesOf_append, ih]
    by_cases same : w.lane = .metric series
    · rw [List.filter_cons_of_pos (by simpa using same), List.flatMap_cons,
        Snapshot.samplesOf_append]
    · rw [List.filter_cons_of_neg (by simpa using same), Snapshot.samplesOf_eq_nil,
        List.nil_append]
      intro row member equal
      exact same ((inside w row member).trans (congrArg Lane.metric equal))

/-- Every interleaving gives a metric the same samples in the same order. -/
theorem samplesOf_eq {rows : Write → List Row}
    (inside : ∀ w, ∀ row ∈ rows w, w.lane = .metric row.series) {script : Lane → List Write}
    {writes more : List Write} (one : Interleaves lane script writes)
    (other : Interleaves lane script more) (series : Series) :
    samplesOf series (writes.flatMap rows) = samplesOf series (more.flatMap rows) := by
  rw [samplesOf_flatMap inside series writes, one.order, samplesOf_flatMap inside series more,
    other.order]

theorem noteIn_comm {v w : Write} (book : Notebook) (notes : Notes) (apart : v.lane ≠ w.lane) :
    noteIn book (noteIn book notes v) w = noteIn book (noteIn book notes w) v := by
  cases v with
  | note first run name text =>
    cases w with
    | note second other title more =>
      by_cases here : first = book
      · by_cases there : second = book
        · subst here there
          simp only [noteIn, ↓reduceIte]
          exact Notes.set_comm notes text more fun same => apart (by rw [lane, lane, same.1, same.2])
        · simp only [noteIn, here, there, ↓reduceIte]
      · simp only [noteIn, here, ↓reduceIte]
    | _ => rfl
  | _ => cases w <;> rfl

end Write

/-! ### What writes do -/

variable {ρ : Type} [Roster ρ]

/-- The writes have been made, and nothing else that shows has changed. -/
structure Written (before after : Store ρ AnyJournal) (writes : List Write) : Prop where
  settings : after.settings = before.settings
  knows : ∀ run, after.knows run = before.knows run
  slots : Slots.Grown before.slots after.slots (writes.flatMap (Write.rows before.settings))
  journal : AnyJournal.Took before.journal after.journal
    (writes.flatMap (Write.recorded before.settings))
  notes : ∀ book, after.notes book = writes.foldl (Write.noteIn book) (before.notes book)

variable {before after last store first second : Store ρ AnyJournal} {writes more : List Write}

theorem Written.sound (written : Written before after writes) : after.Sound := written.slots.sound

theorem Written.trans (left : Written before after writes) (right : Written after last more) :
    Written before last (writes ++ more) where
  settings := right.settings.trans left.settings
  knows run := (right.knows run).trans (left.knows run)
  slots := by
    rw [List.flatMap_append, ← left.settings]
    exact (left.settings ▸ left.slots).trans right.slots
  journal := by
    rw [List.flatMap_append, ← left.settings]
    exact (left.settings ▸ left.journal).trans right.journal
  notes book := by rw [right.notes, left.notes, List.foldl_append]

theorem Written.notes_eq {script : Lane → List Write} (left : Written store first writes)
    (right : Written store second more) (one : Interleaves Write.lane script writes)
    (other : Interleaves Write.lane script more) (book : Notebook) :
    first.notes book = second.notes book := by
  rw [left.notes, right.notes]
  exact one.foldl_eq other _ (fun _ _ notes => Write.noteIn_comm book notes) _

/-- Two interleavings of the same lanes lead to stores that look the same. -/
theorem Written.looks {script : Lane → List Write} (left : Written store first writes)
    (right : Written store second more) (one : Interleaves Write.lane script writes)
    (other : Interleaves Write.lane script more) : Looks first second where
  left := left.sound
  right := right.sound
  knows run := (left.knows run).trans (right.knows run).symm
  slot series := by
    apply (left.sound.slotAt series).eq_of_samples_eq (right.sound.slotAt series)
    rw [left.slots.samples, right.slots.samples,
      Write.samplesOf_eq (fun _ _ => Write.mem_rows_lane) one other]
  params := left.notes_eq right one other .params
  tags := left.notes_eq right one other .tags

theorem Written.load_eq {script : Lane → List Write} (left : Written store first writes)
    (right : Written store second more) (one : Interleaves Write.lane script writes)
    (other : Interleaves Write.lane script more) (run key : String) :
    (Journal.load first.journal run key).1 = (Journal.load second.journal run key).1 :=
  left.journal.load_eq right.journal
    (Write.samplesOf_eq (fun _ _ => Write.mem_recorded_lane) one other) run key

variable [Roster.Steady ρ]

theorem written_record (sound : store.Sound) (run : String) (s : Sample)
    (known : store.knows run = true) {room : Nat} (ample : store.journal.Ample (room + 1)) :
    ∃ next, store.record run s = (s.check store.settings.allowNegative, next) ∧
      Written store next [.record run s] ∧ next.journal.Ample room := by
  cases valid : s.check store.settings.allowNegative with
  | error f =>
    have nothing : Write.rows store.settings (.record run s) = [] := by
      rw [Write.rows, valid, rowsIfOk]
    refine ⟨store, record_of_invalid store run s valid, ?_, ample.mono (Nat.le_succ _)⟩
    have fresh : Slots.Grown store.slots store.slots [] := Slots.Sound.grown sound
    exact ⟨rfl, fun _ => rfl, by simpa [nothing] using fresh,
      by simpa [Write.recorded, nothing] using ample.took_nil, fun _ => rfl⟩
  | ok =>
    have row : Write.rows store.settings (.record run s) = [⟨run, s⟩] := by
      rw [Write.rows, valid, rowsIfOk]
    obtain ⟨journal, taken, room, took⟩ := ample.append run s
    obtain ⟨slots, recorded, grown⟩ := record_of_taken store sound run s valid known taken
    refine ⟨_, recorded, ?_, room⟩
    exact ⟨rfl, Registration.contains_asked store.registration run, by simpa [row] using grown,
      by simpa [Write.recorded, Write.records, row] using took, fun _ => rfl⟩

theorem written_replay (sound : store.Sound) (h : History) (known : store.knows h.run = true)
    {room : Nat} (ample : store.journal.Ample room) :
    ∃ next, store.replay h =
        ((h.samples.forM fun s => s.check store.settings.allowNegative).map fun _ => h.size, next) ∧
      Written store next [.replay h] ∧ next.journal.Ample room := by
  have journalled : AnyJournal.Took store.journal store.journal
      ([Write.replay h].flatMap (Write.recorded store.settings)) := ample.took_nil
  cases valid : h.samples.forM fun s => s.check store.settings.allowNegative with
  | error f =>
    have nothing : Write.rows store.settings (.replay h) = [] := by
      rw [Write.rows, valid, rowsIfOk]
    have checked : store.checkReplay h = (.error f, store) := by
      rw [checkReplay, valid]
    have refused := replay_of_refused store h (congrArg Prod.fst checked)
    rw [checked] at refused
    refine ⟨store, refused, ?_, ample⟩
    have fresh : Slots.Grown store.slots store.slots [] := Slots.Sound.grown sound
    exact ⟨rfl, fun _ => rfl, by simpa [nothing] using fresh, journalled, fun _ => rfl⟩
  | ok =>
    have rows : Write.rows store.settings (.replay h) = rowsOf [h] := by
      rw [Write.rows, valid, rowsIfOk]
    have admitted : store.registration.admits h.run = true := by
      rw [Registration.admits, Bool.or_eq_true]
      exact Or.inr known
    have passed := (checkReplay_eq_ok_iff store h).2 ⟨(forM_eq_ok_iff _ _).1 valid, admitted⟩
    obtain ⟨next, replayed, done⟩ := replayed_of_passed store sound h passed
    have enrolled := done.registration.contains
    have grown := done.slots
    obtain ⟨registration, slots, rfl⟩ := done.rest
    refine ⟨_, replayed,
      ⟨rfl, fun run => ?_, by simpa [rows] using grown, journalled, fun _ => rfl⟩, ample⟩
    -- The run of the history is known already, so taking it in makes no difference.
    rw [Bool.eq_iff_iff, knows, knows, enrolled, or_iff_left_iff_imp]
    rintro ⟨-, member⟩
    rw [List.map_singleton, List.mem_singleton] at member
    exact member ▸ known

theorem written_note (sound : store.Sound) (book : Notebook) (run name text : String)
    (known : store.knows run = true) {room : Nat} (ample : store.journal.Ample room) :
    ∃ next, store.perform (Write.note book run name text).call = (.ok .done, next) ∧
      Written store next [.note book run name text] ∧ next.journal.Ample room := by
  have asked := Registration.contains_asked store.registration run
  cases book with
  | params =>
    let next := { store.asked run with params := store.params.set run name text }
    have performed : store.perform (.setParam run name text) = (.ok .done, next) := by
      rw [perform, setParam, requireRun, if_pos known]
      rfl
    refine ⟨next, performed, ⟨rfl, asked, Slots.Sound.grown sound, ample.took_nil, fun book => ?_⟩,
      ample⟩
    cases book <;> rfl
  | tags =>
    let next := { store.asked run with tags := store.tags.set run name text }
    have performed : store.perform (.setTag run name text) = (.ok .done, next) := by
      rw [perform, setTag, requireRun, if_pos known]
      rfl
    refine ⟨next, performed, ⟨rfl, asked, Slots.Sound.grown sound, ample.took_nil, fun book => ?_⟩,
      ample⟩
    cases book <;> rfl

/-- A write gets the reply that is due to it, whatever has been written before. -/
theorem written_perform (sound : store.Sound) (w : Write) (known : store.knows w.lane.run = true)
    {room : Nat} (ample : store.journal.Ample (room + if w.records then 1 else 0)) :
    ∃ next, store.perform w.call = (w.verdict store.settings, next) ∧ Written store next [w] ∧
      next.journal.Ample room := by
  cases w with
  | record run s =>
    obtain ⟨next, recorded, written⟩ := written_record sound run s known ample
    refine ⟨next, ?_, written⟩
    rw [Write.call, perform, recorded, Write.verdict]
  | replay h =>
    obtain ⟨next, replayed, written⟩ := written_replay sound h known ample
    refine ⟨next, ?_, written⟩
    rw [Write.call, perform, replayed, Write.verdict]
    cases h.samples.forM fun s => s.check store.settings.allowNegative <;> rfl
  | note book run name text => exact written_note sound book run name text known ample

theorem written_after (sound : store.Sound) (writes : List Write)
    (known : ∀ w ∈ writes, store.knows w.lane.run = true)
    (ample : store.journal.Ample (writes.countP Write.records)) :
    Written store (store.after (writes.map Write.event)) writes ∧
      store.replies (writes.map Write.event) = writes.map (Write.verdict store.settings) := by
  induction writes generalizing store with
  | nil =>
    exact ⟨⟨rfl, fun _ => rfl, Slots.Sound.grown sound, ample.took_nil, fun _ => rfl⟩, rfl⟩
  | cons w rest ih =>
    rw [List.countP_cons] at ample
    obtain ⟨next, performed, written, room⟩ :=
      written_perform sound w (known w List.mem_cons_self) ample
    obtain ⟨others, replies⟩ := ih written.sound
      (fun v member => (written.knows v.lane.run).trans (known v (List.mem_cons_of_mem _ member)))
      room
    constructor
    · change Written store ((store.perform w.call).2.after (rest.map Write.event)) (w :: rest)
      rw [performed]
      exact written.trans others
    · change (store.perform w.call).1 :: (store.perform w.call).2.replies (rest.map Write.event) = _
      rw [performed, List.map_cons, replies, written.settings]

/-- The writes of a lane among others, each with its reply. -/
def answersIn (store : Store ρ AnyJournal) (writes : List Write) (lane : Lane) :
    List (Write × Except Failure Reply) :=
  (writes.zip (store.replies (writes.map Write.event))).filter fun answer => answer.1.lane = lane

theorem answersIn_eq (sound : store.Sound) {script : Lane → List Write}
    (one : Interleaves Write.lane script writes)
    (known : ∀ w ∈ writes, store.knows w.lane.run = true)
    (ample : store.journal.Ample (writes.countP Write.records)) (lane : Lane) :
    store.answersIn writes lane = (script lane).map fun w => (w, w.verdict store.settings) := by
  rw [answersIn, (written_after sound writes known ample).2, ← List.map_prod_left_eq_zip,
    List.filter_map, ← one.order]
  rfl

/-- Writers of different metrics, params and tags do not disturb one another. While their runs are known
and the journal keeps nothing or has room for all they record, every interleaving of what they write
gives each of them the same replies and leaves a store that shows the same, with a journal from which
the same is loaded. -/
theorem interleavings_agree (settings : Settings) (registration : Registration ρ)
    (journal : AnyJournal) (events : List (Event ρ)) (script : Lane → List Write)
    (writes more : List Write) (one : Interleaves Write.lane script writes)
    (other : Interleaves Write.lane script more)
    (known : ∀ lane, script lane ≠ [] →
      ((empty settings registration journal).after events).knows lane.run = true)
    (ample : ((empty settings registration journal).after events).journal.Ample
      (writes.countP Write.records)) :
    let store := (empty settings registration journal).after events
    let first := store.after (writes.map Write.event)
    let second := store.after (more.map Write.event)
    (∀ lane, store.answersIn writes lane = store.answersIn more lane ∧
        (store.answersIn writes lane).map Prod.fst = script lane) ∧
      (∀ read : Call, read.isRead = true → (first.perform read).1 = (second.perform read).1) ∧
      ∀ run key,
        (Journal.load first.journal run key).1 = (Journal.load second.journal run key).1 := by
  intro store first second
  have sound : store.Sound := after_sound settings registration journal events
  have runs {items : List Write} (inter : Interleaves Write.lane script items) :
      ∀ w ∈ items, store.knows w.lane.run = true := fun w member =>
    known w.lane (List.ne_nil_of_mem (inter.mem_script member))
  have room : store.journal.Ample (more.countP Write.records) := by
    rw [← (one.perm other).countP_eq]
    exact ample
  have left : Written store first writes := (written_after sound writes (runs one) ample).1
  have right : Written store second more := (written_after sound more (runs other) room).1
  refine ⟨fun lane => ?_, fun read reads => (left.looks right one other).read reads,
    left.load_eq right one other⟩
  rw [answersIn_eq sound one (runs one) ample, answersIn_eq sound other (runs other) room,
    List.map_map]
  exact ⟨rfl, List.map_id _⟩

/-- Two samples of one metric, the second of which is refused for its step, around a param. -/
theorem interleavings_of_refused_sample :
    let store : Store RunSet AnyJournal :=
      (empty {} (.own RunSet.empty) (.logbook (Logbook.empty none))).after
        [.call (.register "train")]
    let writes : List Write :=
      [.record "train" ⟨"loss", ⟨1⟩, 0, 1⟩, .note .params "train" "rate" "0.1",
        .record "train" ⟨"loss", ⟨2⟩, 0, -1⟩]
    let more : List Write :=
      [.note .params "train" "rate" "0.1", .record "train" ⟨"loss", ⟨1⟩, 0, 1⟩,
        .record "train" ⟨"loss", ⟨2⟩, 0, -1⟩]
    ∀ read : Call, read.isRead = true →
      ((store.after (writes.map Write.event)).perform read).1 =
        ((store.after (more.map Write.event)).perform read).1 := by
  intro store writes more
  have one := Interleaves.self Write.lane writes
  have other := one.swap [] (by decide)
  have runs : ∀ w ∈ writes, store.knows w.lane.run = true := by decide
  have known : ∀ lane, (writes.filter fun w => w.lane = lane) ≠ [] →
      store.knows lane.run = true := by
    intro lane some_there
    obtain ⟨w, kept⟩ := List.exists_mem_of_ne_nil _ some_there
    obtain ⟨member, same⟩ := List.mem_filter.1 kept
    exact of_decide_eq_true same ▸ runs w member
  have agreed := interleavings_agree {} (.own RunSet.empty) (.logbook (Logbook.empty none))
    [.call (.register "train")] _ writes more one other known ⟨rfl, by decide⟩
  exact agreed.2.1

end Store

end RunMetrics

import RunMetrics.Proofs.HistoryRoundTrip

/-!
The last write wins. Whatever is put into an overview comes down to writes, each of one value under one
key of one of the five tables, and a look-up shows the last write that was meant for it. So the tables are
filled independently of one another, and lists that are folded into an overview and listed again come back
in order, with one entry for each key.
-/

set_option autoImplicit false

namespace RunMetrics

namespace Overview

/-! ### Writes -/

/-- The tables of an overview. -/
inductive Part where
  | samples (p : Projection)
  | params
  | tags
deriving DecidableEq

/-- What stands under a key: a sample, or the text of a param or a tag. -/
inductive Content where
  | sample (s : Sample)
  | text (text : String)
deriving DecidableEq

/-- What an overview shows under a key of a table. -/
def look (o : Overview) : Part → String → Option Content
  | .samples p, key => ((o.samples p).get? key).map .sample
  | .params, key => (o.params.get? key).map .text
  | .tags, key => (o.tags.get? key).map .text

theorem ext_look {a b : Overview} (same : ∀ part key, a.look part key = b.look part key) : a = b := by
  have samples (p : Projection) : a.samples p = b.samples p :=
    Table.ext_get? fun key => Option.map_injective (fun _ _ => Content.sample.inj)
      (same (.samples p) key)
  have params : a.params = b.params :=
    Table.ext_get? fun key => Option.map_injective (fun _ _ => Content.text.inj) (same .params key)
  have tags : a.tags = b.tags :=
    Table.ext_get? fun key => Option.map_injective (fun _ _ => Content.text.inj) (same .tags key)
  exact ext_samples samples params tags

/-- One value under one key. -/
inductive Write where
  | sample (p : Projection) (s : Sample)
  | param (name text : String)
  | tag (name text : String)
deriving DecidableEq

namespace Write

def part : Write → Part
  | sample p _ => .samples p
  | param _ _ => .params
  | tag _ _ => .tags

def key : Write → String
  | sample _ s => s.key
  | param name _ => name
  | tag name _ => name

def content : Write → Content
  | sample _ s => .sample s
  | param _ text => .text text
  | tag _ text => .text text

/-- Whether a write is meant for a key of a table. -/
def hits (part : Part) (key : String) (w : Write) : Bool := decide (w.part = part ∧ w.key = key)

end Write

def write (o : Overview) : Write → Overview
  | .sample p s => o.putSample p s
  | .param name text => o.putParam name text
  | .tag name text => o.putTag name text

/-- What was written is seen where it was meant for, and nothing else changes. -/
theorem look_write (o : Overview) (w : Write) (part : Part) (key : String) :
    (o.write w).look part key = if w.hits part key then some w.content else o.look part key := by
  cases w with
  | sample p s =>
    cases part with
    | samples q =>
      rw [write, look, look, samples_putSample]
      by_cases table : q = p
      · subst table
        by_cases here : key = s.key
        · subst here
          simp [Write.hits, Write.part, Write.key, Write.content]
        · simp [Write.hits, Write.part, Write.key, Ne.symm here, Table.get?_insert_of_ne _ _ here]
      · simp [Write.hits, Write.part, table, Ne.symm table]
    | params => simp [write, look, Write.hits, Write.part]
    | tags => simp [write, look, Write.hits, Write.part]
  | param name text =>
    cases part with
    | samples q => cases q <;> rfl
    | params =>
      by_cases here : key = name
      · subst here
        simp [write, putParam, look, Write.hits, Write.part, Write.key, Write.content]
      · simp [write, putParam, look, Write.hits, Write.key, Ne.symm here,
          Table.get?_insert_of_ne _ _ here]
    | tags => rfl
  | tag name text =>
    cases part with
    | samples q => cases q <;> rfl
    | params => rfl
    | tags =>
      by_cases here : key = name
      · subst here
        simp [write, putTag, look, Write.hits, Write.part, Write.key, Write.content]
      · simp [write, putTag, look, Write.hits, Write.key, Ne.symm here,
          Table.get?_insert_of_ne _ _ here]

/-- The value of the last write that is meant for a key of a table. -/
def last (writes : List Write) (part : Part) (key : String) : Option Content :=
  ((writes.filter (Write.hits part key)).getLast?).map Write.content

theorem last_append (first second : List Write) (part : Part) (key : String) :
    last (first ++ second) part key = (last second part key).or (last first part key) := by
  rw [last, List.filter_append, List.getLast?_append, Option.map_or]
  rfl

/-- Of items that are all written into one table, the last one with the key counts there, and none
anywhere else. -/
theorem last_map {α : Type} {w : α → Write} {table : Part} (there : ∀ item, (w item).part = table)
    (items : List α) (part : Part) (key : String) :
    last (items.map w) part key =
      if table = part then
        ((items.filter fun item => (w item).key = key).getLast?).map fun item => (w item).content
      else none := by
  rw [last, List.filter_map, List.getLast?_map, Option.map_map]
  by_cases same : table = part
  · simp only [Write.hits, Function.comp_def, there, same, true_and, ↓reduceIte]
  · simp [Write.hits, Function.comp_def, there, same]

theorem look_foldl_write (o : Overview) (writes : List Write) (part : Part) (key : String) :
    (writes.foldl write o).look part key = (last writes part key).or (o.look part key) := by
  induction writes using List.reverseRecOn with
  | nil => rfl
  | append_singleton earlier w ih =>
    rw [List.foldl_append, List.foldl_cons, List.foldl_nil, look_write, last, List.filter_append,
      List.getLast?_append, List.filter_singleton]
    cases w.hits part key with
    | true => rfl
    | false => exact ih

/-! ### Entries -/

/-- The writes that an entry comes down to. -/
def Entry.writes : Entry → List Write
  | .sample p s => [.sample p s]
  | .summary shown => Projection.all.filterMap fun p => (shown.get? p).map (.sample p)
  | .param name text => [.param name text]
  | .tag name text => [.tag name text]
  | .params pairs => pairs.map fun pair => .param pair.1 pair.2
  | .tags pairs => pairs.map fun pair => .tag pair.1 pair.2

theorem put_eq_foldl_write (o : Overview) (entry : Entry) :
    o.put entry = entry.writes.foldl write o := by
  cases entry with
  | sample p s => rfl
  | summary shown =>
    obtain ⟨latest, lowest, highest⟩ := shown
    cases lowest <;> cases highest <;> rfl
  | param name text => rfl
  | tag name text => rfl
  | params pairs =>
    rw [Entry.writes, List.foldl_map]
    rfl
  | tags pairs =>
    rw [Entry.writes, List.foldl_map]
    rfl

theorem foldl_put_eq_foldl_write (o : Overview) (entries : List Entry) :
    entries.foldl put o = (entries.flatMap Entry.writes).foldl write o := by
  induction entries generalizing o with
  | nil => rfl
  | cons entry rest ih =>
    rw [List.foldl_cons, ih, put_eq_foldl_write, List.flatMap_cons, List.foldl_append]

/-- An overview shows the last of what was put in. -/
theorem look_ofEntries (entries : List Entry) (part : Part) (key : String) :
    (ofEntries entries).look part key = last (entries.flatMap Entry.writes) part key := by
  have nothing : empty.look part key = none := by
    rcases part with p | - | - <;> [cases p; skip; skip] <;> rfl
  rw [ofEntries, foldl_put_eq_foldl_write, look_foldl_write, nothing, Option.or_none]

/-- Whether an entry is meant for a table. -/
def Entry.addresses (part : Part) (entry : Entry) : Bool :=
  entry.writes.any fun w => decide (w.part = part)

theorem filter_writes_of_not_addresses {part : Part} {entry : Entry}
    (elsewhere : entry.addresses part = false) (key : String) :
    entry.writes.filter (Write.hits part key) = [] := by
  rw [List.filter_eq_nil_iff]
  intro w member hit
  have there : w.part = part := (of_decide_eq_true hit).1
  have missed := List.any_eq_false.1 elsewhere w member
  exact missed (decide_eq_true there)

/-- Entries that are meant for other tables may be left out. -/
theorem look_ofEntries_filter (entries : List Entry) (part : Part) (key : String) :
    (ofEntries (entries.filter (Entry.addresses part))).look part key =
      (ofEntries entries).look part key := by
  have writes : ((entries.filter (Entry.addresses part)).flatMap Entry.writes).filter
      (Write.hits part key) = (entries.flatMap Entry.writes).filter (Write.hits part key) := by
    induction entries with
    | nil => rfl
    | cons entry rest ih =>
      rw [List.flatMap_cons, List.filter_append, ← ih, List.filter_cons]
      cases meant : entry.addresses part with
      | true => rw [if_pos rfl, List.flatMap_cons, List.filter_append]
      | false =>
        rw [if_neg Bool.false_ne_true, filter_writes_of_not_addresses meant key, List.nil_append]
  rw [look_ofEntries, look_ofEntries, last, last, writes]

/-- No write of one entry is meant for the place of one of the other. -/
def Entry.Apart (a b : Entry) : Prop :=
  ∀ v ∈ a.writes, ∀ w ∈ b.writes, v.part ≠ w.part ∨ v.key ≠ w.key

theorem exists_hit {writes : List Write} {part : Part} {key : String} {c : Content}
    (written : last writes part key = some c) : ∃ w ∈ writes, w.part = part ∧ w.key = key := by
  obtain ⟨w, found, -⟩ := Option.map_eq_some_iff.1 written
  obtain ⟨member, hit⟩ := List.mem_filter.1 (List.mem_of_getLast? found)
  exact ⟨w, member, of_decide_eq_true hit⟩

theorem put_comm {a b : Entry} (apart : a.Apart b) (o : Overview) :
    (o.put a).put b = (o.put b).put a := by
  apply ext_look
  intro part key
  simp only [put_eq_foldl_write, look_foldl_write]
  cases first : last a.writes part key with
  | none => rfl
  | some c =>
    cases second : last b.writes part key with
    | none => rfl
    | some d =>
      obtain ⟨v, here, table, name⟩ := exists_hit first
      obtain ⟨w, there, sameTable, sameName⟩ := exists_hit second
      rcases apart v here w there with differ | differ
      · exact absurd (table.trans sameTable.symm) differ
      · exact absurd (name.trans sameName.symm) differ

end Overview

/-! ### Lists -/

namespace Record

namespace OverviewRecord

/-- The records of a projection. -/
def list (r : OverviewRecord) : Projection → List SampleRecord
  | .latest => r.latest
  | .lowest => r.lowest
  | .highest => r.highest

theorem putRecords_eq (p : Projection) (o : Overview) (records : List SampleRecord) :
    putRecords p o records =
      (records.mapM (SampleRecord.toSample true)).map (o.putSamples p) := by
  induction records generalizing o with
  | nil => rfl
  | cons r rest ih =>
    rw [putRecords, List.foldlM_cons, List.mapM_cons]
    cases read : r.toSample true with
    | error f => rfl
    | ok s =>
      change putRecords p (o.putSample p s) rest = _
      rw [ih]
      cases rest.mapM (SampleRecord.toSample true) <;> rfl

/-- The calls that a record comes down to, if all its samples are accepted. -/
def entries (r : OverviewRecord) : List Overview.Entry :=
  (r.latest.map fun s => .sample .latest s.sample) ++
    (r.lowest.map fun s => .sample .lowest s.sample) ++
    (r.highest.map fun s => .sample .highest s.sample) ++
    [.params (r.params.map NoteRecord.toPair), .tags (r.tags.map NoteRecord.toPair)]

theorem mapM_toSample_of_accepted {records : List SampleRecord}
    (accepted : ∀ s ∈ records, ∃ x, s.toSample true = .ok x) :
    records.mapM (SampleRecord.toSample true) = .ok (records.map SampleRecord.sample) := by
  refine mapM_of_ok fun s member => ?_
  obtain ⟨x, read⟩ := accepted s member
  rw [read, SampleRecord.eq_sample_of_toSample read]

theorem foldl_put_samples (o : Overview) (p : Projection) (records : List SampleRecord) :
    (records.map fun s => Overview.Entry.sample p s.sample).foldl Overview.put o =
      o.putSamples p (records.map SampleRecord.sample) := by
  rw [Overview.putSamples, List.foldl_map, List.foldl_map]
  rfl

theorem toOverview_of_accepted {r : OverviewRecord}
    (accepted : ∀ s ∈ r.samples, ∃ x, s.toSample true = .ok x) :
    r.toOverview = .ok (Overview.ofEntries r.entries) := by
  simp only [samples, List.mem_append] at accepted
  have latest := mapM_toSample_of_accepted fun s member => accepted s (.inl (.inl member))
  have lowest := mapM_toSample_of_accepted fun s member => accepted s (.inl (.inr member))
  have highest := mapM_toSample_of_accepted fun s member => accepted s (.inr member)
  rw [Overview.ofEntries, entries, List.foldl_append, List.foldl_append, List.foldl_append,
    foldl_put_samples, foldl_put_samples, foldl_put_samples]
  simp only [toOverview, putRecords_eq, latest, lowest, highest]
  rfl

/-- A record is refused as the first of its samples that is refused. -/
theorem of?_toOverview (r : OverviewRecord) :
    Failure.of? r.toOverview = r.samples.findSome? fun s => Failure.of? (s.toSample true) := by
  rw [samples, List.findSome?_append, List.findSome?_append, ← of?_mapM, ← of?_mapM, ← of?_mapM]
  simp only [toOverview, putRecords_eq]
  cases r.latest.mapM (SampleRecord.toSample true) with
  | error f => rfl
  | ok latest =>
    cases r.lowest.mapM (SampleRecord.toSample true) with
    | error f => rfl
    | ok lowest => cases r.highest.mapM (SampleRecord.toSample true) <;> rfl

theorem exists_toOverview_iff (r : OverviewRecord) :
    (∃ o, r.toOverview = .ok o) ↔ ∀ s ∈ r.samples, ∃ x, s.toSample true = .ok x := by
  rw [← Failure.of?_eq_none_iff, of?_toOverview, List.findSome?_eq_none_iff]
  simp only [Failure.of?_eq_none_iff]

theorem flatMap_writes_entries (r : OverviewRecord) :
    r.entries.flatMap Overview.Entry.writes =
      (r.latest.map fun s => .sample .latest s.sample) ++
        (r.lowest.map fun s => .sample .lowest s.sample) ++
        (r.highest.map fun s => .sample .highest s.sample) ++
        ((r.params.map fun n => .param n.key n.value) ++ r.tags.map fun n => .tag n.key n.value) := by
  simp only [entries, List.flatMap_append, List.flatMap_map, Overview.Entry.writes,
    List.flatMap_cons, List.flatMap_nil, List.append_nil, List.map_map, ← List.map_eq_flatMap]
  rfl

/-- A look-up shows the last record of its own list that has the key. -/
theorem look_entries (r : OverviewRecord) (key : String) :
    (∀ p, (Overview.ofEntries r.entries).look (.samples p) key =
      (((r.list p).filter fun s => s.key = key).getLast?).map fun s => .sample s.sample) ∧
      (Overview.ofEntries r.entries).look .params key =
        ((r.params.filter fun n => n.key = key).getLast?).map (fun n => .text n.value) ∧
      (Overview.ofEntries r.entries).look .tags key =
        ((r.tags.filter fun n => n.key = key).getLast?).map (fun n => .text n.value) := by
  have samples (p : Projection) := Overview.last_map
    (fun s : SampleRecord => (rfl : (Overview.Write.sample p s.sample).part = .samples p))
  have params := Overview.last_map
    (fun n : NoteRecord => (rfl : (Overview.Write.param n.key n.value).part = .params))
  have tags := Overview.last_map
    (fun n : NoteRecord => (rfl : (Overview.Write.tag n.key n.value).part = .tags))
  simp only [Overview.look_ofEntries, flatMap_writes_entries, Overview.last_append, samples, params,
    tags]
  -- Of the five lists only the one of the table is left.
  refine ⟨fun p => ?_, ?_, ?_⟩
  · cases p <;>
      simp only [reduceCtorEq, Overview.Part.samples.injEq, ↓reduceIte, Option.none_or,
        Option.or_none] <;>
      rfl
  · simp only [reduceCtorEq, ↓reduceIte, Option.none_or, Option.or_none]
    rfl
  · simp only [reduceCtorEq, ↓reduceIte, Option.or_none]
    rfl

theorem get?_entries (r : OverviewRecord) (p : Projection) (key : String) :
    ((Overview.ofEntries r.entries).samples p).get? key =
      (((r.list p).filter fun s => s.key = key).getLast?).map SampleRecord.sample := by
  apply Option.map_injective fun _ _ => Overview.Content.sample.inj
  rw [Option.map_map]
  exact (r.look_entries key).1 p

theorem mem_samples {r : OverviewRecord} {p : Projection} {s : SampleRecord}
    (member : s ∈ r.list p) : s ∈ r.samples := by
  rw [samples, List.mem_append, List.mem_append]
  cases p with
  | latest => exact .inl (.inl member)
  | lowest => exact .inl (.inr member)
  | highest => exact .inr member

/-- A key shows the last sample with it, which was accepted. -/
theorem get?_entries_eq_some_iff {r : OverviewRecord}
    (accepted : ∀ s ∈ r.samples, ∃ x, s.toSample true = .ok x) (p : Projection) (key : String)
    (x : Sample) :
    ((Overview.ofEntries r.entries).samples p).get? key = some x ↔
      ∃ last, ((r.list p).filter fun s => s.key = key).getLast? = some last ∧
        last.toSample true = .ok x := by
  rw [get?_entries, Option.map_eq_some_iff]
  refine exists_congr fun last => and_congr_right fun found => ?_
  have member := (List.mem_filter.1 (List.mem_of_getLast? found)).1
  obtain ⟨y, read⟩ := accepted last (mem_samples member)
  rw [read, ← SampleRecord.eq_sample_of_toSample read, Except.ok.injEq]

/-! ### Normal forms -/

/-- Keys in strictly increasing order, so that none occurs twice. -/
def Ascending (keys : List String) : Prop :=
  keys.Pairwise fun a b => Text.bytes a < Text.bytes b

/-- Every list is in strictly increasing order of its keys. -/
structure Sorted (r : OverviewRecord) : Prop where
  samples : ∀ p, Ascending ((r.list p).map SampleRecord.key)
  params : Ascending (r.params.map NoteRecord.key)
  tags : Ascending (r.tags.map NoteRecord.key)

theorem ascending_keys {α : Type} (t : Table String α) : Ascending t.keys :=
  List.pairwise_map.2 (t.increasing.imp Text.bytes_lt)

theorem list_ofOverview (o : Overview) (p : Projection) :
    (ofOverview o).list p = (o.samples p).values.map .ofSample := by
  cases p <;> rfl

theorem sorted_ofOverview {o : Overview} (keyed : o.Keyed) : (ofOverview o).Sorted where
  samples p := by
    have keys : ((ofOverview o).list p).map SampleRecord.key = (o.samples p).keys := by
      rw [list_ofOverview, List.map_map, Table.values, List.map_map, Table.keys]
      apply List.map_congr_left
      rintro ⟨key, s⟩ member
      exact keyed p key s ((Table.mem_entries_iff _ key s).1 member)
    rw [keys]
    exact ascending_keys _
  params := by
    rw [ofOverview, List.map_map]
    exact ascending_keys o.params
  tags := by
    rw [ofOverview, List.map_map]
    exact ascending_keys o.tags

theorem ofBinary64_of_isNaN {x : Binary64} (number : x.isNaN = true) :
    Quantity.ofBinary64 x = .text "NaN" := by
  rw [Quantity.ofBinary64, Quantity.spelling?, if_pos number]

/-- Whatever its payload, NaN has one spelling. -/
theorem ofBinary64_canonical (x : Binary64) :
    Quantity.ofBinary64 x.canonical = Quantity.ofBinary64 x := by
  cases number : x.isNaN with
  | true =>
    rw [Binary64.canonical, if_pos number, ofBinary64_of_isNaN number]
    rfl
  | false => rw [Binary64.canonical, number, if_neg Bool.false_ne_true]

theorem ofOverview_canonical (o : Overview) : ofOverview o.canonical = ofOverview o := by
  have values (t : Table String Sample) :
      (t.map Sample.canonical).values.map SampleRecord.ofSample = t.values.map .ofSample := by
    rw [Table.values, Table.values, Table.map, List.map_map, List.map_map, List.map_map]
    apply List.map_congr_left
    intro entry _
    simp only [Function.comp_apply, SampleRecord.ofSample, Sample.canonical, ofBinary64_canonical]
  simp only [ofOverview, Overview.canonical, values]

theorem named_of_accepted {r : OverviewRecord}
    (accepted : ∀ s ∈ r.samples, ∃ x, s.toSample true = .ok x) :
    (Overview.ofEntries r.entries).Named := by
  intro p key x found
  obtain ⟨last, -, read⟩ := (get?_entries_eq_some_iff accepted p key x).1 found
  have faultless : last.faults true = [] := by
    rw [← List.head?_eq_none_iff, ← last.of?_toSample, read]
    rfl
  rw [SampleRecord.eq_sample_of_toSample read]
  intro nameless
  have unnamed : last.key = "" := nameless
  simp [SampleRecord.faults, unnamed] at faultless

/-- A record makes an overview just if each of its samples is accepted, and otherwise it is refused as the
first that is not. Each key then shows the last entry with it in the list of its table. So it is with
whatever is put into an overview: a look-up shows the last write meant for it, what is meant for other
tables may be left out, and what is meant for other places may be put in before or behind. Listed again, an
overview is in strictly increasing order of its keys, and from there on nothing changes any more. -/
theorem overviews_show_last_writes :
    (∀ r : OverviewRecord,
      ((∃ o, r.toOverview = .ok o) ↔ ∀ s ∈ r.samples, ∃ x, s.toSample true = .ok x) ∧
        (∀ f, r.toOverview = .error f ↔
          r.samples.findSome? (fun s => Failure.of? (s.toSample true)) = some f) ∧
        ∀ o, r.toOverview = .ok o →
          (∀ p key x, (o.samples p).get? key = some x ↔
            ∃ last, ((r.list p).filter fun s => s.key = key).getLast? = some last ∧
              last.toSample true = .ok x) ∧
            (∀ key, o.params.get? key =
              ((r.params.filter fun n => n.key = key).getLast?).map NoteRecord.value) ∧
            (∀ key, o.tags.get? key =
              ((r.tags.filter fun n => n.key = key).getLast?).map NoteRecord.value) ∧
            (ofOverview o).Sorted ∧
            ∃ again, (ofOverview o).toOverview = .ok again ∧ again = o.canonical ∧
              ofOverview again = ofOverview o) ∧
      ∀ entries : List Overview.Entry,
        (ofOverview (.ofEntries entries)).Sorted ∧
          (∀ part key, (Overview.ofEntries entries).look part key =
            Overview.last (entries.flatMap Overview.Entry.writes) part key) ∧
          (∀ part key, (Overview.ofEntries entries).look part key =
            (Overview.ofEntries (entries.filter (Overview.Entry.addresses part))).look part key) ∧
          ∀ a b : Overview.Entry, a.Apart b → ∀ o : Overview, (o.put a).put b = (o.put b).put a := by
  constructor
  · intro r
    refine ⟨r.exists_toOverview_iff, fun f => ?_, fun o folded => ?_⟩
    · rw [← Failure.of?_eq_some_iff, of?_toOverview]
    · have accepted := r.exists_toOverview_iff.1 ⟨o, folded⟩
      rw [toOverview_of_accepted accepted, Except.ok.injEq] at folded
      subst folded
      have keyed := Overview.keyed_ofEntries r.entries
      refine ⟨get?_entries_eq_some_iff accepted, fun key => ?_, fun key => ?_,
        sorted_ofOverview keyed, _, toOverview_of_named keyed (named_of_accepted accepted), rfl,
        ofOverview_canonical _⟩
      · apply Option.map_injective fun _ _ => Overview.Content.text.inj
        rw [Option.map_map]
        exact (r.look_entries key).2.1
      · apply Option.map_injective fun _ _ => Overview.Content.text.inj
        rw [Option.map_map]
        exact (r.look_entries key).2.2
  · intro entries
    refine ⟨sorted_ofOverview (Overview.keyed_ofEntries entries), Overview.look_ofEntries entries,
      fun part key => (Overview.look_ofEntries_filter entries part key).symm,
      fun a b apart => Overview.put_comm apart⟩

/-- A key that occurs twice in one list, and one that occurs in two. -/
theorem overview_of_repeated_keys :
    let r : OverviewRecord :=
      ⟨[⟨"loss", .number ⟨0⟩, 0, 0⟩, ⟨"accuracy", .text "nan", 0, 0⟩, ⟨"loss", .text "inf", -1, 0⟩],
        [], [], [⟨"rate", "0.1"⟩, ⟨"rate", "0.01"⟩], [⟨"rate", "slow"⟩]⟩
    (∃ o, r.toOverview = .ok o ∧ o.latest.get? "loss" = some ⟨"loss", .infinity, -1, 0⟩ ∧
      o.params.get? "rate" = some "0.01" ∧ (ofOverview o).Sorted) ∧
      (Overview.empty.put (.param "rate" "0.1")).put (.tag "rate" "slow") =
        (Overview.empty.put (.tag "rate" "slow")).put (.param "rate" "0.1") := by
  intro r
  obtain ⟨records, builders⟩ := overviews_show_last_writes
  obtain ⟨folds, -, shown⟩ := records r
  obtain ⟨-, -, -, commutes⟩ := builders []
  obtain ⟨o, folded⟩ := folds.2 (List.forall_iff_forall_mem.1 (by
    exact ⟨⟨_, rfl⟩, ⟨_, rfl⟩, ⟨_, rfl⟩⟩))
  obtain ⟨samples, params, -, sorted, -⟩ := shown o folded
  refine ⟨⟨o, folded, ?_, (params "rate").trans (by decide), sorted⟩, ?_⟩
  · exact (samples .latest "loss" _).2 ⟨_, rfl, rfl⟩
  · exact commutes _ _ (by simp [Overview.Entry.Apart, Overview.Entry.writes, Overview.Write.part]) _

end OverviewRecord

end Record

end RunMetrics

import RunMetrics.Proofs.OverviewRoundTrip

/-!
Histories that go over the wire. A history is rebuilt from a record in two passes: every sample on its own
is checked first, and only then that all have the key of the history. The fault reported is the first one
of the first pass, and if there is none, the first of the second.
-/

set_option autoImplicit false

namespace RunMetrics

theorem Failure.of?_eq_some_iff {α : Type} {outcome : Except Failure α} {f : Failure} :
    Failure.of? outcome = some f ↔ outcome = .error f := by
  cases outcome <;> simp [Failure.of?]

theorem Failure.of?_eq_none_iff {α : Type} {outcome : Except Failure α} :
    Failure.of? outcome = none ↔ ∃ x, outcome = .ok x := by
  cases outcome <;> simp [Failure.of?]

/-! ### Faults of samples -/

/-- The rules that a sample breaks, in the order in which they are checked. -/
def Sample.faults (allowNegative : Bool) (s : Sample) : List Failure :=
  (if s.key = "" then [.refused .emptyKey] else []) ++
    (if allowNegative = false ∧ s.timestamp < 0 then
      [.refused (.negativeTimestamp s.key s.timestamp)] else []) ++
    (if allowNegative = false ∧ s.step < 0 then [.refused (.negativeStep s.key s.step)] else [])

theorem Sample.of?_check (allowNegative : Bool) (s : Sample) :
    Failure.of? (s.check allowNegative) = (s.faults allowNegative).head? := by
  unfold check faults
  by_cases unnamed : s.key = ""
  · simp [unnamed, Failure.of?]
  · cases allowNegative with
    | true => simp [unnamed, Failure.of?]
    | false =>
      by_cases early : s.timestamp < 0
      · simp [unnamed, early, Failure.of?]
      · by_cases below : s.step < 0 <;> simp [unnamed, early, below, Failure.of?]

namespace Record

/-- What is wrong with a value where a number is asked for. -/
def Quantity.faults : Quantity → List Failure
  | .number _ => []
  | .text s => if (spellings.lookup s).isSome then [] else [.refused (.notNumeric s)]
  | .null => [.refused .nullNumber]

/-- All that is wrong with the record of a sample: first the value, then the key, the time and the
step. -/
def SampleRecord.faults (allowNegative : Bool) (r : SampleRecord) : List Failure :=
  r.value.faults ++ (if r.key = "" then [.refused .emptyKey] else []) ++
    (if allowNegative = false ∧ r.timestamp < 0 then
      [.refused (.negativeTimestamp r.key r.timestamp)] else []) ++
    (if allowNegative = false ∧ r.step < 0 then [.refused (.negativeStep r.key r.step)] else [])

theorem Quantity.of?_toBinary64 (q : Quantity) : Failure.of? q.toBinary64 = q.faults.head? := by
  cases q with
  | number x => rfl
  | text s =>
    rw [toBinary64, faults]
    cases spellings.lookup s <;> rfl
  | null => rfl

theorem SampleRecord.faults_eq (allowNegative : Bool) (r : SampleRecord) (x : Binary64) :
    r.faults allowNegative =
      r.value.faults ++ Sample.faults allowNegative ⟨r.key, x, r.timestamp, r.step⟩ := by
  simp only [faults, Sample.faults, List.append_assoc]

/-- The sample of a record is refused for the first fault of the record. -/
theorem SampleRecord.of?_toSample (allowNegative : Bool) (r : SampleRecord) :
    Failure.of? (r.toSample allowNegative) = (r.faults allowNegative).head? := by
  have numeric := r.value.of?_toBinary64
  rw [toSample]
  cases read : r.value.toBinary64 with
  | error f =>
    rw [read] at numeric
    rw [r.faults_eq allowNegative .nan, List.head?_append, ← numeric]
    rfl
  | ok x =>
    rw [read] at numeric
    have valid := Sample.of?_check allowNegative ⟨r.key, x, r.timestamp, r.step⟩
    rw [r.faults_eq allowNegative x, List.head?_append, ← numeric, ← valid]
    cases checked : Sample.check allowNegative ⟨r.key, x, r.timestamp, r.step⟩ with
    | error f => simp [checked, bind, Except.bind, Failure.of?]
    | ok => simp [checked, bind, Except.bind, Failure.of?]

theorem SampleRecord.toSample_eq_ok {allowNegative : Bool} {r : SampleRecord} {s : Sample}
    (read : r.toSample allowNegative = .ok s) :
    ∃ x, r.value.toBinary64 = .ok x ∧ s = ⟨r.key, x, r.timestamp, r.step⟩ := by
  rw [toSample] at read
  cases numeric : r.value.toBinary64 with
  | error f => simp [numeric, bind, Except.bind] at read
  | ok x =>
    cases checked : Sample.check allowNegative ⟨r.key, x, r.timestamp, r.step⟩ with
    | error f => simp [numeric, checked, bind, Except.bind] at read
    | ok =>
      simp only [numeric, checked, bind, Except.bind, Except.ok.injEq] at read
      exact ⟨x, rfl, read.symm⟩

/-- The sample that a record stands for, if it is accepted. -/
def SampleRecord.sample (r : SampleRecord) : Sample :=
  ⟨r.key, r.value.toBinary64.toOption.getD .nan, r.timestamp, r.step⟩

theorem SampleRecord.eq_sample_of_toSample {allowNegative : Bool} {r : SampleRecord} {s : Sample}
    (read : r.toSample allowNegative = .ok s) : s = r.sample := by
  obtain ⟨x, numeric, rfl⟩ := toSample_eq_ok read
  rw [sample, numeric]
  rfl

theorem SampleRecord.toSample_ofSample_eq (allowNegative : Bool) (s : Sample) :
    (ofSample s).toSample allowNegative = (s.check allowNegative).map fun _ => s.canonical := by
  rw [toSample, ofSample, Quantity.toBinary64_ofBinary64]
  have same : Sample.check allowNegative s.canonical = s.check allowNegative := rfl
  change (do
    Sample.check allowNegative s.canonical
    .ok s.canonical) = _
  rw [same]
  cases s.check allowNegative <;> rfl

end Record

/-! ### Lists of outcomes -/

section Lists

variable {α β γ : Type} {f : α → Except Failure β} {items : List α}

theorem of?_mapM (f : α → Except Failure β) (items : List α) :
    Failure.of? (items.mapM f) = items.findSome? fun item => Failure.of? (f item) := by
  induction items with
  | nil => rfl
  | cons item rest ih =>
    rw [List.mapM_cons, List.findSome?_cons]
    cases first : f item with
    | error e => rfl
    | ok y =>
      rw [← ih]
      cases others : rest.mapM f <;> rfl

theorem mapM_of_ok {g : α → β} (each : ∀ item ∈ items, f item = .ok (g item)) :
    items.mapM f = .ok (items.map g) := by
  induction items with
  | nil => rfl
  | cons item rest ih =>
    rw [List.mapM_cons, each item List.mem_cons_self,
      ih fun other member => each other (List.mem_cons_of_mem _ member)]
    rfl

/-- What a function keeps of each item, it keeps of a list. -/
theorem map_eq_of_mapM {seen : β → γ} {watched : α → γ}
    (kept : ∀ item y, f item = .ok y → seen y = watched item) {ys : List β}
    (read : items.mapM f = .ok ys) : ys.map seen = items.map watched := by
  induction items generalizing ys with
  | nil =>
    cases read
    rfl
  | cons item rest ih =>
    rw [List.mapM_cons] at read
    cases first : f item with
    | error e => simp [first, bind, Except.bind] at read
    | ok y =>
      cases others : rest.mapM f with
      | error e => simp [first, others, bind, Except.bind] at read
      | ok more =>
        simp only [first, others, bind, Except.bind, pure, Except.pure, Except.ok.injEq] at read
        rw [← read, List.map_cons, List.map_cons, kept item y first, ih others]

end Lists

/-! ### Faults of histories -/

/-- A key that is not that of the history. -/
def History.foreign (expected key : String) : List Failure :=
  if key = expected then [] else [.refused (.foreignKey key expected)]

theorem History.of?_foldlM_append (start : History) (samples : List Sample) :
    Failure.of? (samples.foldlM append start) =
      ((samples.map Sample.key).flatMap (foreign start.key)).head? := by
  induction samples generalizing start with
  | nil => rfl
  | cons s rest ih =>
    rw [List.foldlM_cons, List.map_cons, List.flatMap_cons]
    by_cases same : s.key = start.key
    · rw [append_of_key_eq start same, foreign, if_pos same, List.nil_append]
      exact ih (start.push s same)
    · rw [append_of_key_ne start same, foreign, if_neg same]
      rfl

/-- The history with one NaN in place of all. -/
def History.canonical (h : History) : History where
  run := h.run
  key := h.key
  samples := h.samples.map .canonical
  keyed := List.forall_mem_map.2 h.keyed

namespace Record

namespace HistoryRecord

/-- All that is wrong with the record of a history: first what is wrong with the samples on their own,
then the keys that are not that of the history. -/
def faults (allowNegative : Bool) (r : HistoryRecord) : List Failure :=
  r.samples.flatMap (SampleRecord.faults allowNegative) ++
    (r.samples.map SampleRecord.key).flatMap (History.foreign r.key)

/-- The first fault of samples on their own is that of the first one that is refused. -/
theorem head?_sample_faults (allowNegative : Bool) (samples : List SampleRecord) :
    (samples.flatMap (SampleRecord.faults allowNegative)).head? =
      samples.findSome? fun s => Failure.of? (s.toSample allowNegative) := by
  rw [List.head?_flatMap]
  simp only [SampleRecord.of?_toSample]

/-- The history of a record is refused for the first fault of the record. -/
theorem of?_toHistory (allowNegative : Bool) (r : HistoryRecord) :
    Failure.of? (r.toHistory allowNegative) = (r.faults allowNegative).head? := by
  have first := of?_mapM (SampleRecord.toSample allowNegative) r.samples
  rw [faults, List.head?_append, head?_sample_faults, ← first, toHistory]
  cases read : r.samples.mapM (SampleRecord.toSample allowNegative) with
  | error f => rfl
  | ok samples =>
    have keys : samples.map Sample.key = r.samples.map SampleRecord.key :=
      map_eq_of_mapM (fun _ _ accepted =>
        congrArg Sample.key (SampleRecord.eq_sample_of_toSample accepted)) read
    rw [← keys]
    exact History.of?_foldlM_append (.empty r.run r.key) samples

theorem exists_toHistory_iff (allowNegative : Bool) (r : HistoryRecord) :
    (∃ h, r.toHistory allowNegative = .ok h) ↔
      (∀ s ∈ r.samples, ∃ x, s.toSample allowNegative = .ok x) ∧
        ∀ s ∈ r.samples, s.key = r.key := by
  have keys : (∀ s ∈ r.samples, History.foreign r.key s.key = []) ↔
      ∀ s ∈ r.samples, s.key = r.key := by
    simp [History.foreign]
  rw [← Failure.of?_eq_none_iff, of?_toHistory, faults, List.head?_append, Option.or_eq_none_iff,
    head?_sample_faults, List.findSome?_eq_none_iff, List.head?_eq_none_iff,
    List.flatMap_eq_nil_iff, List.forall_mem_map, keys]
  simp only [Failure.of?_eq_none_iff]

/-- The record that is decoded of the text of a history, if its numbers read back. -/
theorem decode_ofHistory {h : History} (back : ∀ s ∈ h.samples, s.value.ReadsBack) :
    decode codec (encode codec (ofHistory h)) = .ok (ofHistory h) := by
  have settled : (ofHistory h).settled = ofHistory h := by
    simp only [HistoryRecord.settled, ofHistory, List.map_map, Function.comp_def,
      SampleRecord.settled_ofSample]
  have written : ∀ r ∈ (ofHistory h).samples, r.value.ReadsBack :=
    List.forall_mem_map.2 fun s member => Quantity.readsBack_ofBinary64 (back s member)
  rw [decode_encode (readsAs written) (by decide), settled]

/-- The record of a history has the faults of its samples and no others. -/
theorem of?_toHistory_ofHistory (allowNegative : Bool) (h : History) :
    Failure.of? ((ofHistory h).toHistory allowNegative) =
      h.samples.findSome? fun s => Failure.of? (s.check allowNegative) := by
  have keys : ((ofHistory h).samples.map SampleRecord.key).flatMap (History.foreign h.key) = [] := by
    rw [List.flatMap_eq_nil_iff, ofHistory, List.map_map, List.forall_mem_map]
    exact fun s member => if_pos (h.keyed s member)
  have checked (s : Sample) : Failure.of? ((SampleRecord.ofSample s).toSample allowNegative) =
      Failure.of? (s.check allowNegative) := by
    rw [SampleRecord.toSample_ofSample_eq]
    cases s.check allowNegative <;> rfl
  rw [of?_toHistory, faults, List.head?_append, head?_sample_faults]
  change Option.or _ (((ofHistory h).samples.map SampleRecord.key).flatMap
    (History.foreign h.key)).head? = _
  rw [keys, List.head?_nil, Option.or_none, ofHistory, List.findSome?_map]
  simp only [Function.comp_def, checked]

theorem toHistory_ofHistory {allowNegative : Bool} {h : History}
    (valid : ∀ s ∈ h.samples, s.check allowNegative = .ok ()) :
    (ofHistory h).toHistory allowNegative = .ok h.canonical := by
  have read : (h.samples.map SampleRecord.ofSample).mapM (SampleRecord.toSample allowNegative) =
      .ok (h.samples.map Sample.canonical) := by
    rw [List.mapM_map]
    refine mapM_of_ok fun s member => ?_
    rw [Function.comp_apply, SampleRecord.toSample_ofSample_eq, valid s member]
    rfl
  obtain ⟨back, built⟩ := History.ofSamples_of_keyed h.run h.key _ h.canonical.keyed
  have same : back = h.canonical := by
    obtain ⟨run, key, samples⟩ := History.ofSamples_eq_ok built
    exact History.eq_of_samples_eq run key samples
  rw [toHistory, ofHistory, read, ← same]
  exact built

/-- What is decoded of the text of a history whose numbers read back is the history, all NaN being one, just
if every sample is valid; otherwise it is refused as the first sample that is not. In general a record makes
a history just if each of its samples is accepted and all have its key. The first sample that is refused
decides, whatever keys stand before it, and it is refused for its value first, then for its key, its time
and its step. -/
theorem histories_cross_the_wire (allowNegative : Bool) :
    (∀ h : History, (∀ s ∈ h.samples, s.value.ReadsBack) →
      ∃ record, decode codec (encode codec (ofHistory h)) = .ok record ∧
        (record.toHistory allowNegative = .ok h.canonical ↔
          ∀ s ∈ h.samples, s.check allowNegative = .ok ()) ∧
        ∀ f, record.toHistory allowNegative = .error f ↔
          h.samples.findSome? (fun s => Failure.of? (s.check allowNegative)) = some f) ∧
      ∀ r : HistoryRecord,
        ((∃ h, r.toHistory allowNegative = .ok h) ↔
          (∀ s ∈ r.samples, ∃ x, s.toSample allowNegative = .ok x) ∧
            ∀ s ∈ r.samples, s.key = r.key) ∧
          (∀ f, r.samples.findSome? (fun s => Failure.of? (s.toSample allowNegative)) = some f →
            r.toHistory allowNegative = .error f) ∧
          (∀ f, r.toHistory allowNegative = .error f ↔ (r.faults allowNegative).head? = some f) ∧
          ∀ s ∈ r.samples, ∀ f,
            s.toSample allowNegative = .error f ↔ (s.faults allowNegative).head? = some f := by
  refine ⟨fun h back => ⟨_, decode_ofHistory back, ?_, fun f => ?_⟩, fun r => ⟨?_, ?_, ?_, ?_⟩⟩
  · constructor
    · intro whole s member
      have fine := of?_toHistory_ofHistory allowNegative h
      rw [whole, eq_comm] at fine
      obtain ⟨⟨⟩, checked⟩ := Failure.of?_eq_none_iff.1 (List.findSome?_eq_none_iff.1 fine s member)
      exact checked
    · exact toHistory_ofHistory
  · rw [← Failure.of?_eq_some_iff, of?_toHistory_ofHistory]
  · exact exists_toHistory_iff allowNegative r
  · intro f first
    rw [← Failure.of?_eq_some_iff, of?_toHistory, faults, List.head?_append, head?_sample_faults,
      first, Option.some_or]
  · intro f
    rw [← Failure.of?_eq_some_iff, of?_toHistory]
  · intro s _ f
    rw [← Failure.of?_eq_some_iff, SampleRecord.of?_toSample]

/-- A negative step of minus a third behind NaN with a payload, and a foreign key in front of a sample in
which nothing is right. -/
theorem histories_with_late_faults :
    let h : History := ⟨"run", "loss",
      [⟨"loss", ⟨0x7ff8000000000001⟩, 0, 1⟩, ⟨"loss", ⟨0xbfd5555555555555⟩, 0, -1⟩], by decide⟩
    let r : HistoryRecord :=
      ⟨"run", "loss", [⟨"accuracy", .number ⟨0⟩, 0, 0⟩, ⟨"", .text "abc", -1, -1⟩]⟩
    (∃ record, decode codec (encode codec (ofHistory h)) = .ok record ∧
      record.toHistory true = .ok h.canonical ∧
      record.toHistory false = .error (.refused (.negativeStep "loss" (-1)))) ∧
      r.toHistory true = .error (.refused (.notNumeric "abc")) := by
  intro h r
  have back : ∀ s ∈ h.samples, s.value.ReadsBack := by decide +kernel
  obtain ⟨record, decoded, whole, -⟩ := (histories_cross_the_wire true).1 h back
  obtain ⟨again, same, -, first⟩ := (histories_cross_the_wire false).1 h back
  rw [decoded] at same
  cases same
  refine ⟨⟨record, decoded, whole.2 (by decide), (first _).2 (by decide)⟩, ?_⟩
  exact ((histories_cross_the_wire true).2 r).2.1 _ (by decide)

end HistoryRecord

end Record

end RunMetrics

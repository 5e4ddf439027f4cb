import RunMetrics.Proofs.MisreadValues
import RunMetrics.Proofs.RecordMeaning
import RunMetrics.Proofs.WireRoundTrip

/-!
The layout of records. The rules of the members of each wire record: which kinds of values belong there and
which members may be left out. Whether a document is a record, and which one, depends on nothing but the
values of the known members; a text that is refused for them is refused as an invalid value. A number counts
for what the reader makes of its literal, which is not always the nearest double.
-/

set_option autoImplicit false

namespace RunMetrics

namespace Json

/-! ### Records of any layout -/

/-- The codec is that of a record whose fields accept what the strict rules say, and call nothing malformed
that the loose rules admit. -/
inductive LaidOut {ρ : Type} : Codec ρ → List MemberRule → List MemberRule → Prop where
  | record {types : List Type} {name : RecordName} {fields : Fields types}
      {trees : Readings types} {assemble : Tuple types → ρ} {parts : ρ → Tuple types}
      {strict loose : List MemberRule} (reads : fields.ReadTrees trees)
      (obeys : fields.Obey trees strict) (spares : fields.Spare trees loose)
      (distinct : (strict.map MemberRule.name).Nodup) :
      LaidOut (.record name fields assemble parts) strict loose

/-- The array of the known members is nested no deeper than the object. -/
theorem Within.arranged {rules : List MemberRule} {members : List (String × Value)} {depth : Nat}
    (shallow : Within (depth + 2) (.object members)) :
    Within (depth + 2) (.list (arranged rules members)) := by
  cases shallow with
  | object inside =>
    refine .list fun v member => ?_
    obtain ⟨rule, -, rfl⟩ := List.mem_map.1 member
    cases values : held rule.name members with
    | nil => exact .list (List.forall_mem_nil _)
    | cons w more => exact inside (rule.name, w) (mem_held.1 (values ▸ List.mem_cons_self))

/-- Whatever can be depicted as a member can be depicted as an element. -/
theorem exists_document_list {items : List Value}
    (depicted : ∀ v ∈ items, ∃ core, Depicts core v) : ∃ text, Document text (.list items) := by
  obtain ⟨parts, rfl, cores⟩ : ∃ parts : List (Part × Value), items = parts.map Prod.snd ∧
      ∀ part ∈ parts, Depicts part.1.core part.2 := by
    induction items with
    | nil => exact ⟨[], rfl, List.forall_mem_nil _⟩
    | cons v items ih =>
      obtain ⟨⟨core, depicts⟩, depicted⟩ := List.forall_mem_cons.1 depicted
      obtain ⟨parts, same, cores⟩ := ih depicted
      exact ⟨(.bare core, v) :: parts, congrArg (v :: ·) same,
        List.forall_mem_cons.2 ⟨depicts, cores⟩⟩
  exact ⟨String.ofList _, .bare _, (String.toList_ofList).trans (Part.text_bare _).symm,
    .list blank_nil cores⟩

theorem Document.exists_arranged {text : String} {members : List (String × Value)}
    (document : Document text (.object members)) (rules : List MemberRule) :
    ∃ array, Document array (.list (arranged rules members)) := by
  obtain ⟨part, -, depicts⟩ := document
  have cores : ∀ m ∈ members, ∃ core, Depicts core m.2 := by
    generalize part.core = core at depicts
    cases depicts with
    | object blank depicted =>
      intro m member
      obtain ⟨item, known, rfl⟩ := List.mem_map.1 member
      exact ⟨_, depicted item known⟩
  refine exists_document_list fun v member => ?_
  obtain ⟨rule, -, rfl⟩ := List.mem_map.1 member
  cases values : held rule.name members with
  | nil => exact ⟨_, @Depicts.list [] [] blank_nil (List.forall_mem_nil _)⟩
  | cons w more => exact cores (rule.name, w) (mem_held.1 (values ▸ List.mem_cons_self))

namespace LaidOut

variable {ρ : Type} {codec : Codec ρ} {strict loose : List MemberRule} {text : String}
  {members : List (String × Value)}

theorem strictly (laid : LaidOut codec strict loose) : LaidOut codec strict strict := by
  cases laid with
  | record reads obeys spares distinct => exact .record reads obeys obeys.spare distinct

theorem decode_object_iff (laid : LaidOut codec strict loose)
    (document : Document text (.object members)) (shallow : Within nestingLimit (.object members)) :
    (∃ r, codec.decode text = .ok r) ↔
      WellTyped strict members ∧ NoneRepeated strict members ∧ NoneMissing strict members := by
  cases laid with
  | record reads obeys spares distinct =>
    rw [(Codec.record_readsTrees reads _ _).decode document shallow, ← forall_met_iff,
      ← obeys.ofMembers_iff distinct]
    exact exists_map_eq_ok_iff

theorem decode_congr (laid : LaidOut codec strict loose)
    (document : Document text (.object members)) (shallow : Within nestingLimit (.object members))
    {other : String} {others : List (String × Value)}
    (other_document : Document other (.object others))
    (other_shallow : Within nestingLimit (.object others))
    (same : ∀ rule ∈ strict, held rule.name others = held rule.name members) {r : ρ}
    (decoded : codec.decode text = .ok r) : codec.decode other = .ok r := by
  cases laid with
  | record reads obeys spares distinct =>
    rw [(Codec.record_readsTrees reads _ _).decode document shallow] at decoded
    rw [(Codec.record_readsTrees reads _ _).decode other_document other_shallow]
    obtain ⟨values, found, rfl⟩ := map_eq_ok_iff.1 decoded
    exact map_eq_ok_iff.2 ⟨values, obeys.ofMembers_congr distinct same found, rfl⟩

theorem decode_arranged (laid : LaidOut codec strict loose)
    (document : Document text (.object members)) (shallow : Within nestingLimit (.object members))
    {array : String} (array_document : Document array (.list (arranged strict members))) {r : ρ}
    (decoded : codec.decode text = .ok r) : codec.decode array = .ok r := by
  cases laid with
  | @record types name _ _ _ _ _ _ reads obeys spares distinct =>
    rw [(Codec.record_readsTrees reads _ _).decode document shallow] at decoded
    rw [(Codec.record_readsTrees reads _ _).decode array_document shallow.arranged]
    obtain ⟨values, found, rfl⟩ := map_eq_ok_iff.1 decoded
    exact map_eq_ok_iff.2 ⟨values, obeys.ofItems_arranged distinct name.withLength 0 found, rfl⟩

theorem blamesData (laid : LaidOut codec strict loose)
    (document : Document text (.object members)) (shallow : Within nestingLimit (.object members))
    (typed : WellTyped loose members) : BlamesData (codec.decode text) := by
  cases laid with
  | record reads obeys spares distinct =>
    rw [(Codec.record_readsTrees reads _ _).decode document shallow]
    exact (spares.ofMembers typed).map _

end LaidOut

/-! ### Records by their rules -/

/-- The codec is that of a record whose fields sort values by the rules. -/
inductive SortsBy {ρ : Type} : Codec ρ → List SortRule → Prop where
  | record {types : List Type} {name : RecordName} {fields : Fields types}
      {trees : Readings types} {assemble : Tuple types → ρ} {parts : ρ → Tuple types}
      {rules : List SortRule} (sorts : fields.Sorts trees rules)
      (distinct : ((memberRules rules).map MemberRule.name).Nodup) :
      SortsBy (.record name fields assemble parts) rules

namespace SortsBy

variable {ρ : Type} {codec : Codec ρ} {rules : List SortRule}

theorem laidOut (sortsBy : SortsBy codec rules) {loose : List MemberRule}
    (admissible : Admissible rules loose) : LaidOut codec (memberRules rules) loose := by
  cases sortsBy with
  | record sorts distinct => exact .record sorts.reads sorts.obeys (sorts.spare admissible) distinct

theorem exists_sorts (sortsBy : SortsBy codec rules) :
    ∃ tree, codec.Sorts tree (IsRecord (memberRules rules)) (IsRecordMisread rules) := by
  cases sortsBy with
  | record sorts distinct => exact ⟨_, sorts.record distinct _ _ _⟩

/-- A record of this layout may stand in a list that is a member of another one. -/
theorem exists_sorts_list (sortsBy : SortsBy codec rules) :
    ∃ tree, (Codec.list codec).Sorts (Codec.asList tree) (IsListOf (IsRecord (memberRules rules)))
      (IsListMisread (IsRecord (memberRules rules)) (IsRecordMisread rules)) := by
  obtain ⟨tree, sorts⟩ := sortsBy.exists_sorts
  exact ⟨tree, sorts.list⟩

end SortsBy

end Json

namespace Record

open Json

/-! ### Members of wire records -/

/-- A number, a string or null. -/
def IsQuantity (v : Value) : Prop := IsNumber v ∨ IsText v ∨ v = .null

theorem Quantity.codec_readsTrees : Quantity.codec.ReadsTrees Quantity.ofValue := by
  refine ⟨fun {core v} depicts depth shallow before rest blank ends => ?_⟩
  simp only [codec, depicts.read shallow blank ends, bind, Except.bind]
  cases ofValue v <;> rfl

theorem Quantity.accepts_ofValue : Accepts Quantity.ofValue IsQuantity := by
  intro v
  cases v <;> simp [ofValue, IsQuantity, IsNumber, IsText, unfit]

theorem Quantity.blamesData_ofValue (v : Value) : BlamesData (Quantity.ofValue v) := by
  cases v <;> nofun

theorem Quantity.sorts : Quantity.codec.Sorts Quantity.ofValue IsQuantity fun _ => False :=
  ⟨codec_readsTrees, accepts_ofValue, misreads_nothing blamesData_ofValue⟩

/-- What the value of a sample says in a record. -/
def Quantity.Means : Quantity → Value → Prop
  | .number x, v => ∃ n : Number, v = .number n ∧ n.toBinary64 = x
  | .text s, v => v = .text s
  | .null, v => v = .null

theorem Quantity.means : Quantity.codec.Means Quantity.ofValue Quantity.Means := by
  refine ⟨codec_readsTrees, fun {v q} => ?_⟩
  cases v <;> cases q <;> simp [ofValue, Means, unfit]

theorem projection_means : Projection.codec.Means (Codec.asNamed Projection.names)
    (Codec.SaysName Projection.names) :=
  ⟨⟨fun depicts _ shallow _ _ blank _ => Codec.readNamed_tree _ depicts shallow blank⟩,
    Codec.asNamed_tells⟩

theorem projection_sorts : Projection.codec.Sorts (Codec.asNamed Projection.names)
    (IsNamed ["latest", "min", "max"]) (IsNameMisread ["latest", "min", "max"]) :=
  ⟨projection_means.reads, Codec.accepts_asNamed Projection.names,
    Codec.misreads_asNamed Projection.names⟩

/-- The rules of a sample's record, given what its time and its step must hold. -/
def SampleRecord.rules (time : Value → Prop) : List MemberRule :=
  [⟨"key", IsText, false⟩, ⟨"value", IsQuantity, false⟩, ⟨"timestamp", time, false⟩,
   ⟨"step", time, false⟩]

def SampleRecord.sortRules : List SortRule := (rules IsInt64).map MemberRule.plain

theorem SampleRecord.sortsBy : SortsBy SampleRecord.codec sortRules :=
  .record (.cons Codec.text_sorts nofun <| .cons Quantity.sorts nofun <|
    .cons Codec.int64_sorts nofun <| .cons Codec.int64_sorts nofun .nil) (by decide)

theorem SampleRecord.admissible (time : Value → Prop) : Admissible sortRules (rules time) :=
  .plain <| .plain <| .plain <| .plain .nil

/-- What each member of a sample's record says. -/
def SampleRecord.meanings : Meanings [String, Quantity, Int64, Int64] :=
  .cons "key" Codec.SaysText none <| .cons "value" Quantity.Means none <|
    .cons "timestamp" Codec.SaysInt64 none <| .cons "step" Codec.SaysInt64 none .nil

def SampleRecord.values (r : SampleRecord) : Tuple [String, Quantity, Int64, Int64] :=
  (r.key, r.value, r.timestamp, r.step, ())

theorem SampleRecord.means : ∃ tree, codec.Means tree fun r => meanings.Means r.values :=
  ⟨_, Fields.Mean.record (.cons Codec.text_means <| .cons Quantity.means <|
    .cons Codec.int64_means <| .cons Codec.int64_means .nil) (by decide) (fun _ => rfl) fun _ => rfl⟩

def NoteRecord.rules : List MemberRule := [⟨"key", IsText, false⟩, ⟨"value", IsText, false⟩]

def NoteRecord.sortRules : List SortRule := rules.map MemberRule.plain

theorem NoteRecord.sortsBy : SortsBy NoteRecord.codec sortRules :=
  .record (.cons Codec.text_sorts nofun <| .cons Codec.text_sorts nofun .nil) (by decide)

theorem NoteRecord.admissible : Admissible sortRules rules := .plain <| .plain .nil

def NoteRecord.meanings : Meanings [String, String] :=
  .cons "key" Codec.SaysText none <| .cons "value" Codec.SaysText none .nil

def NoteRecord.values (r : NoteRecord) : Tuple [String, String] := (r.key, r.value, ())

theorem NoteRecord.means : ∃ tree, codec.Means tree fun r => meanings.Means r.values :=
  ⟨_, Fields.Mean.record (.cons Codec.text_means <| .cons Codec.text_means .nil) (by decide)
    (fun _ => rfl) fun _ => rfl⟩

def HistoryRecord.rules (time : Value → Prop) : List MemberRule :=
  [⟨"run_id", IsText, false⟩, ⟨"metric_key", IsText, false⟩,
   ⟨"metrics", IsListOf (IsRecord (SampleRecord.rules time)), false⟩]

def HistoryRecord.sortRules : List SortRule :=
  [MemberRule.plain ⟨"run_id", IsText, false⟩, MemberRule.plain ⟨"metric_key", IsText, false⟩,
   listRule "metrics" false SampleRecord.sortRules]

theorem HistoryRecord.sortsBy : SortsBy HistoryRecord.codec sortRules := by
  obtain ⟨_, samples⟩ := SampleRecord.sortsBy.exists_sorts_list
  exact .record (.cons Codec.text_sorts nofun <| .cons Codec.text_sorts nofun <|
    .cons samples nofun .nil) (by decide)

theorem HistoryRecord.admissible (time : Value → Prop) : Admissible sortRules (rules time) :=
  .plain <| .plain <| .listRule (SampleRecord.admissible time) .nil

def HistoryRecord.meanings : Meanings [String, String, List SampleRecord] :=
  .cons "run_id" Codec.SaysText none <| .cons "metric_key" Codec.SaysText none <|
    .cons "metrics" (Codec.SaysList fun s => SampleRecord.meanings.Means s.values) none .nil

def HistoryRecord.values (r : HistoryRecord) : Tuple [String, String, List SampleRecord] :=
  (r.run, r.key, r.samples, ())

theorem HistoryRecord.means : ∃ tree, codec.Means tree fun r => meanings.Means r.values := by
  obtain ⟨_, samples⟩ := SampleRecord.means
  exact ⟨_, Fields.Mean.record (.cons Codec.text_means <| .cons Codec.text_means <|
    .cons samples.list .nil) (by decide) (fun _ => rfl) fun _ => rfl⟩

def OverviewRecord.rules (time : Value → Prop) : List MemberRule :=
  [⟨"metrics", IsListOf (IsRecord (SampleRecord.rules time)), true⟩,
   ⟨"metric_minimums", IsListOf (IsRecord (SampleRecord.rules time)), true⟩,
   ⟨"metric_maximums", IsListOf (IsRecord (SampleRecord.rules time)), true⟩,
   ⟨"params", IsListOf (IsRecord NoteRecord.rules), true⟩,
   ⟨"tags", IsListOf (IsRecord NoteRecord.rules), true⟩]

def OverviewRecord.sortRules : List SortRule :=
  [listRule "metrics" true SampleRecord.sortRules,
   listRule "metric_minimums" true SampleRecord.sortRules,
   listRule "metric_maximums" true SampleRecord.sortRules,
   listRule "params" true NoteRecord.sortRules, listRule "tags" true NoteRecord.sortRules]

theorem OverviewRecord.sortsBy : SortsBy OverviewRecord.codec sortRules := by
  obtain ⟨_, samples⟩ := SampleRecord.sortsBy.exists_sorts_list
  obtain ⟨_, notes⟩ := NoteRecord.sortsBy.exists_sorts_list
  have empty {α : Type} {tree : TreeReader α} (x : List α) (absence : some [] = some x) :
      Codec.asList tree (.list []) = .ok x := congrArg Except.ok (Option.some.inj absence)
  exact .record (.cons samples empty <| .cons samples empty <| .cons samples empty <|
    .cons notes empty <| .cons notes empty .nil) (by decide)

theorem OverviewRecord.admissible (time : Value → Prop) : Admissible sortRules (rules time) :=
  .listRule (SampleRecord.admissible time) <| .listRule (SampleRecord.admissible time) <|
    .listRule (SampleRecord.admissible time) <| .listRule NoteRecord.admissible <|
    .listRule NoteRecord.admissible .nil

/-- A list that is left out is empty. -/
def OverviewRecord.meanings : Meanings
    [List SampleRecord, List SampleRecord, List SampleRecord, List NoteRecord, List NoteRecord] :=
  let samples := Codec.SaysList fun s : SampleRecord => SampleRecord.meanings.Means s.values
  let notes := Codec.SaysList fun n : NoteRecord => NoteRecord.meanings.Means n.values
  .cons "metrics" samples (some []) <| .cons "metric_minimums" samples (some []) <|
    .cons "metric_maximums" samples (some []) <| .cons "params" notes (some []) <|
    .cons "tags" notes (some []) .nil

def OverviewRecord.values (r : OverviewRecord) : Tuple
    [List SampleRecord, List SampleRecord, List SampleRecord, List NoteRecord, List NoteRecord] :=
  (r.latest, r.lowest, r.highest, r.params, r.tags, ())

theorem OverviewRecord.means : ∃ tree, codec.Means tree fun r => meanings.Means r.values := by
  obtain ⟨_, samples⟩ := SampleRecord.means
  obtain ⟨_, notes⟩ := NoteRecord.means
  exact ⟨_, Fields.Mean.record (.cons samples.list <| .cons samples.list <| .cons samples.list <|
    .cons notes.list <| .cons notes.list .nil) (by decide) (fun _ => rfl) fun _ => rfl⟩

def ProjectionRow.rules (time : Value → Prop) : List MemberRule :=
  [⟨"key", IsText, false⟩, ⟨"run_id", IsText, false⟩,
   ⟨"summary_type", IsNamed ["latest", "min", "max"], false⟩, ⟨"value", IsQuantity, false⟩,
   ⟨"timestamp", time, false⟩, ⟨"step", time, false⟩, ⟨"is_nan", IsFlag, false⟩]

def ProjectionRow.sortRules : List SortRule :=
  [MemberRule.plain ⟨"key", IsText, false⟩, MemberRule.plain ⟨"run_id", IsText, false⟩,
   ⟨⟨"summary_type", IsNamed ["latest", "min", "max"], false⟩,
     IsNameMisread ["latest", "min", "max"]⟩,
   MemberRule.plain ⟨"value", IsQuantity, false⟩, MemberRule.plain ⟨"timestamp", IsInt64, false⟩,
   MemberRule.plain ⟨"step", IsInt64, false⟩, MemberRule.plain ⟨"is_nan", IsFlag, false⟩]

theorem ProjectionRow.sortsBy : SortsBy ProjectionRow.codec sortRules :=
  .record (.cons Codec.text_sorts nofun <| .cons Codec.text_sorts nofun <|
    .cons projection_sorts nofun <| .cons Quantity.sorts nofun <| .cons Codec.int64_sorts nofun <|
    .cons Codec.int64_sorts nofun <| .cons Codec.bool_sorts nofun .nil) (by decide)

theorem ProjectionRow.admissible (time : Value → Prop) : Admissible sortRules (rules time) :=
  .plain <| .plain <| .cons not_isNameMisread <| .plain <| .plain <| .plain <|
    .plain .nil

def ProjectionRow.meanings : Meanings
    [String, String, Projection, Quantity, Int64, Int64, Bool] :=
  .cons "key" Codec.SaysText none <| .cons "run_id" Codec.SaysText none <|
    .cons "summary_type" (Codec.SaysName Projection.names) none <|
    .cons "value" Quantity.Means none <| .cons "timestamp" Codec.SaysInt64 none <|
    .cons "step" Codec.SaysInt64 none <| .cons "is_nan" Codec.SaysFlag none .nil

def ProjectionRow.values (r : ProjectionRow) :
    Tuple [String, String, Projection, Quantity, Int64, Int64, Bool] :=
  (r.key, r.run, r.projection, r.value, r.timestamp, r.step, r.isNaN, ())

theorem ProjectionRow.means : ∃ tree, codec.Means tree fun r => meanings.Means r.values :=
  ⟨_, Fields.Mean.record (.cons Codec.text_means <| .cons Codec.text_means <|
    .cons projection_means <| .cons Quantity.means <| .cons Codec.int64_means <|
    .cons Codec.int64_means <| .cons Codec.bool_means .nil) (by decide) (fun _ => rfl) fun _ => rfl⟩

/-! ### All record types -/

inductive RecordType where
  | sample
  | history
  | note
  | overview
  | row

namespace RecordType

def Carrier : RecordType → Type
  | .sample => SampleRecord
  | .history => HistoryRecord
  | .note => NoteRecord
  | .overview => OverviewRecord
  | .row => ProjectionRow

def codec : (t : RecordType) → Codec t.Carrier
  | .sample => SampleRecord.codec
  | .history => HistoryRecord.codec
  | .note => NoteRecord.codec
  | .overview => OverviewRecord.codec
  | .row => ProjectionRow.codec

/-- The rules of the members, given what a time and a step must hold, on whatever level they stand. -/
def rules (time : Value → Prop) : RecordType → List MemberRule
  | .sample => SampleRecord.rules time
  | .history => HistoryRecord.rules time
  | .note => NoteRecord.rules
  | .overview => OverviewRecord.rules time
  | .row => ProjectionRow.rules time

/-- The rules of the members, with what is misread of each. -/
def sortRules : RecordType → List SortRule
  | .sample => SampleRecord.sortRules
  | .history => HistoryRecord.sortRules
  | .note => NoteRecord.sortRules
  | .overview => OverviewRecord.sortRules
  | .row => ProjectionRow.sortRules

/-- The known members of an object say the record: each of its fields is what the member of that name says. -/
def Says : (t : RecordType) → t.Carrier → List (String × Value) → Prop
  | .sample, r => SampleRecord.meanings.Said r.values
  | .history, r => HistoryRecord.meanings.Said r.values
  | .note, r => NoteRecord.meanings.Said r.values
  | .overview, r => OverviewRecord.meanings.Said r.values
  | .row, r => ProjectionRow.meanings.Said r.values

theorem memberRules_sortRules (t : RecordType) : memberRules t.sortRules = t.rules IsInt64 := by
  cases t <;> rfl

theorem sortsBy (t : RecordType) : SortsBy t.codec t.sortRules := by
  cases t with
  | sample => exact SampleRecord.sortsBy
  | history => exact HistoryRecord.sortsBy
  | note => exact NoteRecord.sortsBy
  | overview => exact OverviewRecord.sortsBy
  | row => exact ProjectionRow.sortsBy

theorem admissible (t : RecordType) (time : Value → Prop) :
    Admissible t.sortRules (t.rules time) := by
  cases t with
  | sample => exact SampleRecord.admissible time
  | history => exact HistoryRecord.admissible time
  | note => exact NoteRecord.admissible
  | overview => exact OverviewRecord.admissible time
  | row => exact ProjectionRow.admissible time

theorem laidOut (t : RecordType) (time : Value → Prop) :
    LaidOut t.codec (t.rules IsInt64) (t.rules time) :=
  t.memberRules_sortRules ▸ t.sortsBy.laidOut (t.admissible time)

end RecordType

theorem decode_eq_ok_iff {ρ : Type} {codec : Codec ρ} {text : String} {r : ρ} :
    decode codec text = .ok r ↔ codec.decode text = .ok r := by
  rw [decode]
  cases codec.decode text <;> simp [Except.mapError]

/-- A text that is not called malformed is refused for its data. -/
theorem isRefusal_of_blamesData {ρ : Type} {codec : Codec ρ} {text : String} {f : Failure}
    (blames : BlamesData (codec.decode text)) (failed : decode codec text = .error f) :
    f.isRefusal = true := by
  rw [decode] at failed
  cases read : codec.decode text with
  | ok r => simp [read, Except.mapError] at failed
  | error fault =>
    cases fault with
    | malformed cause => exact absurd read (blames cause)
    | unfit cause =>
      rw [read] at failed
      cases failed
      rfl

/-- What is decoded of an object is the record that its members say. -/
theorem RecordType.decode_iff_says (t : RecordType) {text : String}
    {members : List (String × Value)} (document : Document text (.object members))
    (shallow : Within nestingLimit (.object members)) (r : t.Carrier) :
    decode t.codec text = .ok r ↔ t.Says r members := by
  have told {ρ : Type} {types : List Type} {codec : Codec ρ} {meanings : Meanings types}
      {values : ρ → Tuple types} (means : ∃ tree, codec.Means tree fun r => meanings.Means (values r))
      (r : ρ) : decode codec text = .ok r ↔ meanings.Said (values r) members := by
    obtain ⟨_, law⟩ := means
    rw [decode_eq_ok_iff, law.decode_iff document shallow, Meanings.means_object]
  cases t with
  | sample => exact told SampleRecord.means r
  | history => exact told HistoryRecord.means r
  | note => exact told NoteRecord.means r
  | overview => exact told OverviewRecord.means r
  | row => exact told ProjectionRow.means r

/-- What decoding makes of an object with these members, in whatever text it stands. -/
structure RecordType.Decides (t : RecordType) (members : List (String × Value)) (text : String) :
    Prop where
  /-- The record that is decoded is the one that the known members say. -/
  meaning : ∀ r, decode t.codec text = .ok r ↔ t.Says r members
  /-- If each known member holds a value of its kind, none may be repeated, and none be missing that must not
  be; nothing else matters. -/
  success : WellTyped (t.rules IsInt64) members →
    ((∃ r, decode t.codec text = .ok r) ↔
      NoneRepeated (t.rules IsInt64) members ∧ NoneMissing (t.rules IsInt64) members)
  /-- Then whatever is not decoded is refused as an invalid value. -/
  refusal : WellTyped (t.rules IsInt64) members →
    ∀ f, decode t.codec text = .error f → f.isRefusal = true
  /-- Another object with the same values of the known members is decoded as the same. -/
  layouts : ∀ r, decode t.codec text = .ok r →
    ∀ other others, Document other (.object others) → Within nestingLimit (.object others) →
      (∀ rule ∈ t.rules IsInt64, held rule.name others = held rule.name members) →
        decode t.codec other = .ok r
  /-- The values of the known members can be put into an array in order. -/
  array_exists : ∃ array, Document array (.list (arranged (t.rules IsInt64) members))
  /-- That array is decoded as the same. -/
  array_same : ∀ r, decode t.codec text = .ok r →
    ∀ array, Document array (.list (arranged (t.rules IsInt64) members)) →
      decode t.codec array = .ok r
  /-- A time or a step that is a number but no integer of 64 bits makes an invalid value of the object, on
  whatever level it stands. -/
  mistimed : WellTyped (t.rules IsNumber) members → ¬WellTyped (t.rules IsInt64) members →
    ∃ f, decode t.codec text = .error f ∧ f.isRefusal = true

/-- What a literal stands for. -/
structure LiteralStands (n : Numeral) (cs : List Char) : Prop where
  /-- It stands in documents for what the reader makes of it. -/
  depicts : ∀ x, Number.ofNumeral n = .ok x → Depicts cs (.number x)
  /-- It is no time and no step if it has a point or an exponent, is minus zero, or is out of range. -/
  timely : ∀ x, Number.ofNumeral n = .ok x →
    (IsInt64 (.number x) ↔ n.fraction = none ∧ n.exponent = none ∧
      ¬(n.negative = true ∧ Decimal.ofDigits n.whole = 0) ∧
      -0x8000000000000000 ≤ n.integer ∧ n.integer < 0x8000000000000000)
  /-- If its digits have 53 bits and its power of ten is a double, it stands for the nearest double. -/
  nearest : Binary64.Short n.decimal → ∃ x, Number.ofNumeral n = .ok x ∧
    x.toBinary64 = Binary64.ofMagnitude n.negative (Binary64.decimalMagnitude n.decimal)

/-- Take an object of any layout: with blanks anywhere, its members in any order and others between them,
keys and strings escaped in any way, and numbers that the reader can take, in any of their spellings. What it
is decoded as depends on the values of its known members alone, and so does whether it is decoded. -/
theorem layout_is_immaterial (t : RecordType) {text : String} {members : List (String × Value)}
    (document : Document text (.object members))
    (shallow : Within nestingLimit (.object members)) :
    t.Decides members text ∧ ∀ n cs, n.Spelled cs → LiteralStands n cs := by
  have laid := t.laidOut IsNumber
  have found : (∃ r, decode t.codec text = .ok r) ↔ WellTyped (t.rules IsInt64) members ∧
      NoneRepeated (t.rules IsInt64) members ∧ NoneMissing (t.rules IsInt64) members := by
    simp only [decode_eq_ok_iff]
    exact laid.decode_object_iff document shallow
  constructor
  · exact {
      meaning := t.decode_iff_says document shallow
      success := fun typed => by rw [found, and_iff_right typed]
      refusal := fun typed f failed =>
        isRefusal_of_blamesData (laid.strictly.blamesData document shallow typed) failed
      layouts := fun r decoded other others other_document other_shallow same => by
        rw [decode_eq_ok_iff] at decoded ⊢
        exact laid.decode_congr document shallow other_document other_shallow same decoded
      array_exists := document.exists_arranged _
      array_same := fun r decoded array array_document => by
        rw [decode_eq_ok_iff] at decoded ⊢
        exact laid.decode_arranged document shallow array_document decoded
      mistimed := fun typed mistimed => by
        cases decoded : decode t.codec text with
        | ok r => exact absurd (found.1 ⟨r, decoded⟩).1 mistimed
        | error f =>
          exact ⟨f, rfl, isRefusal_of_blamesData (laid.blamesData document shallow typed) decoded⟩ }
  · exact fun n cs spelled => {
      depicts := fun x stands => .number ⟨n, spelled, stands⟩
      timely := fun x stands => isInt64_number_iff stands
      nearest := n.ofNumeral_of_short }

/-- Numbers that are in the range of doubles are refused, and the same number is decoded as one double or
another by how many zeros stand behind it. -/
theorem numbers_are_not_read_exactly :
    let text (literal : String) :=
      "\x7b\"key\":\"loss\",\"value\":" ++ literal ++ ",\"timestamp\":1,\"step\":0\x7d"
    let large : Numeral := ⟨false, ['1'], some "797693134862315705".toList, some 308⟩
    let shorter : Numeral := ⟨false, ['3', '1'], some "245270191439438".toList, none⟩
    let longer : Numeral := ⟨false, ['3', '1'], some "2452701914394380".toList, none⟩
    (large.Spelled "1.797693134862315705e308".toList ∧
      Binary64.decimalMagnitude large.decimal < Binary64.infiniteMagnitude ∧
      decode SampleRecord.codec (text "1.797693134862315705e308") =
        .error (.document (.malformed .numberTooLarge))) ∧
      shorter.Spelled "31.245270191439438".toList ∧ longer.Spelled "31.2452701914394380".toList ∧
      longer.decimal = ⟨shorter.decimal.digits * 10, shorter.decimal.exponent - 1⟩ ∧
      decode SampleRecord.codec (text "31.245270191439438") =
        .ok ⟨"loss", .number ⟨0x403f3eca06faea83⟩, 1, 0⟩ ∧
      decode SampleRecord.codec (text "31.2452701914394380") =
        .ok ⟨"loss", .number ⟨0x403f3eca06faea82⟩, 1, 0⟩ := by
  intro text large shorter longer
  have digits {ds : List Char} (all : ds.all Char.isDigit = true) : ∀ c ∈ ds, c.isDigit = true :=
    List.all_eq_true.1 all
  have proper {whole fraction : List Char} {exponent : Option Int} (start : whole.head? ≠ some '0')
      (some_digit : whole ≠ [] ∧ fraction ≠ []) (all : (whole ++ fraction).all Char.isDigit = true) :
      Numeral.Proper ⟨false, whole, some fraction, exponent⟩ := by
    refine ⟨.positive ⟨some_digit.1, start, fun c member => ?_⟩, ?_, ?_⟩
    · exact digits all c (List.mem_append_left fraction member)
    · exact fun empty => some_digit.2 (Option.some.inj empty)
    · rintro _ ⟨⟩ c member
      exact digits all c (List.mem_append_right whole member)
  have large_spelled : large.Spelled "1.797693134862315705e308".toList :=
    ⟨proper (by decide) (by decide) (by decide +kernel), ['e', '3', '0', '8'],
      @Scale.plain 'e' ['3', '0', '8'] (.inl rfl) (by decide) (digits rfl), rfl⟩
  have shorter_spelled : shorter.Spelled "31.245270191439438".toList :=
    ⟨proper (by decide) (by decide) (by decide +kernel), [], .absent, rfl⟩
  have longer_spelled : longer.Spelled "31.2452701914394380".toList :=
    ⟨proper (by decide) (by decide) (by decide +kernel), [], .absent, rfl⟩
  exact ⟨⟨large_spelled, by decide +kernel, by decide +kernel⟩, shorter_spelled, longer_spelled,
    by decide +kernel, by decide +kernel, by decide +kernel⟩

/-- A note whose members stand in the wrong order around an unknown one, one key of which is escaped. -/
theorem document_of_mixed_note :
    Document " \x7b\"value\":\"b\",\"x\":[null,\x7b\x7d],\n\"k\\u0065y\" : \"a\" \x7d"
      (.object [("value", .text "b"), ("x", .list [.null, .object []]), ("key", .text "a")]) := by
  have blank : Blank [' '] := List.forall_mem_singleton.2 rfl
  have line : Blank ['\n'] := List.forall_mem_singleton.2 rfl
  have escaped : Letters ['k', '\\', 'u', '0', '0', '6', '5', 'y'] "key".toList :=
    .plain (by decide) (by decide) (by decide) <| .unicode (n := 0x65) rfl rfl rfl <|
      .plain (by decide) (by decide) (by decide) .nil
  have unknown : Depicts ['[', 'n', 'u', 'l', 'l', ',', '\x7b', '\x7d', ']']
      (.list [.null, .object []]) :=
    @Depicts.list [(.bare ['n', 'u', 'l', 'l'], .null), (.bare ['\x7b', '\x7d'], .object [])] []
      blank_nil (List.forall_mem_cons.2 ⟨.null, List.forall_mem_singleton.2
        (@Depicts.object [] [] blank_nil (List.forall_mem_nil _))⟩)
  refine ⟨⟨[' '], _, [], blank, blank_nil⟩, ?_, @Depicts.object
    [(writtenEntry ("value", ['"', 'b', '"']), .text "b"),
      (writtenEntry ("x", ['[', 'n', 'u', 'l', 'l', ',', '\x7b', '\x7d', ']']),
        .list [.null, .object []]),
      (⟨['\n'], _, "key", [' '], ⟨[' '], ['"', 'a', '"'], [' '], blank, blank⟩, line, escaped,
        blank⟩, .text "a")] [] blank_nil ?_⟩
  · simp only [Part.text, Entry.text, Entry.inner, writtenEntry, Part.bare, List.map_cons,
      List.map_nil, commaSeparated]
    decide
  · exact List.forall_mem_cons.2 ⟨@Depicts.text ['b'] "b" (letters_written ['b']),
      List.forall_mem_cons.2 ⟨unknown,
        List.forall_mem_singleton.2 (@Depicts.text ['a'] "a" (letters_written ['a']))⟩⟩

/-- A sample at minus zero. -/
theorem document_of_untimely_sample :
    Document "\x7b\"key\":\"k\",\"value\":null,\"timestamp\":-0,\"step\":0\x7d"
      (.object [("key", .text "k"), ("value", .null),
        ("timestamp", .number (.real ⟨0x8000000000000000⟩)), ("step", .number (.integer 0))]) := by
  have minus_zero : Denotes ['-', '0'] (.real ⟨0x8000000000000000⟩) :=
    ⟨⟨true, ['0'], none, none⟩, ⟨⟨.zero, nofun, nofun⟩, [], .absent, rfl⟩, by decide +kernel⟩
  have zero : Denotes ['0'] (.integer 0) := @denotes_writeInteger 0 (by decide) (by decide)
  refine ⟨.bare _, ?_, @Depicts.object
    [(writtenEntry ("key", ['"', 'k', '"']), .text "k"),
      (writtenEntry ("value", ['n', 'u', 'l', 'l']), .null),
      (writtenEntry ("timestamp", ['-', '0']), .number (.real ⟨0x8000000000000000⟩)),
      (writtenEntry ("step", ['0']), .number (.integer 0))] [] blank_nil ?_⟩
  · rfl
  · exact List.forall_mem_cons.2 ⟨@Depicts.text ['k'] "k" (letters_written ['k']),
      List.forall_mem_cons.2 ⟨.null, List.forall_mem_cons.2 ⟨.number minus_zero,
        List.forall_mem_singleton.2 (.number zero)⟩⟩⟩

theorem layout_of_mixed_note :
    decode RecordType.note.codec
      " \x7b\"value\":\"b\",\"x\":[null,\x7b\x7d],\n\"k\\u0065y\" : \"a\" \x7d" =
        .ok (⟨"a", "b"⟩ : NoteRecord) ∧
    ∃ f, decode RecordType.sample.codec
      "\x7b\"key\":\"k\",\"value\":null,\"timestamp\":-0,\"step\":0\x7d" = .error f ∧
        f.isRefusal = true := by
  constructor
  · have shallow : Within nestingLimit (.object
        [("value", .text "b"), ("x", .list [.null, .object []]), ("key", .text "a")]) :=
      .object (List.forall_mem_cons.2 ⟨.text _ _, List.forall_mem_cons.2
        ⟨.list (List.forall_mem_cons.2 ⟨.null _, List.forall_mem_singleton.2
          (.object (List.forall_mem_nil _))⟩), List.forall_mem_singleton.2 (.text _ _)⟩⟩)
    have decides := (layout_is_immaterial .note document_of_mixed_note shallow).1
    exact (decides.meaning _).2 ⟨.inl ⟨_, rfl, rfl⟩, .inl ⟨_, rfl, rfl⟩, trivial⟩
  · have shallow : Within nestingLimit (.object [("key", .text "k"), ("value", .null),
        ("timestamp", .number (.real ⟨0x8000000000000000⟩)), ("step", .number (.integer 0))]) :=
      .object (List.forall_mem_cons.2 ⟨.text _ _, List.forall_mem_cons.2 ⟨.null _,
        List.forall_mem_cons.2 ⟨.number _ _, List.forall_mem_singleton.2 (.number _ _)⟩⟩⟩)
    have decides := (layout_is_immaterial .sample document_of_untimely_sample shallow).1
    refine decides.mistimed ?_ ?_
    · exact List.forall_mem_cons.2 ⟨List.forall_mem_singleton.2 ⟨"k", rfl⟩,
        List.forall_mem_cons.2 ⟨List.forall_mem_singleton.2 (.inr (.inr rfl)),
          List.forall_mem_cons.2 ⟨List.forall_mem_singleton.2 ⟨_, rfl⟩,
            List.forall_mem_singleton.2 (List.forall_mem_singleton.2 ⟨_, rfl⟩)⟩⟩⟩
    · intro typed
      obtain ⟨n, same, -⟩ := typed ⟨"timestamp", IsInt64, false⟩
        (.tail _ (.tail _ (.head _))) _ (.head _)
      cases same

end Record

end RunMetrics

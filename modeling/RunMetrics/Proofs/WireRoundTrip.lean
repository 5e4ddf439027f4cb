import RunMetrics.Proofs.CodecRoundTrip
import RunMetrics.Record.Basic
import RunMetrics.Store.Settings

/-!
Wire records lose nothing, as far as the reader of numbers comes back to the doubles that are written.
What is decoded of an encoded record then is the record itself, but for numbers that are not finite, which
come back as the text that spells them. Either way a value stands for the same double, or for none with the
same failure.
-/

set_option autoImplicit false

namespace RunMetrics

/-! ### Kinds of doubles -/

namespace Binary64

/-- The double with one NaN in place of all. -/
def canonical (x : Binary64) : Binary64 := if x.isNaN then nan else x

theorem canonical_of_finite {x : Binary64} (finite : x.isFinite = true) : canonical x = x := by
  have below : x.magnitude < infiniteMagnitude := of_decide_eq_true finite
  have number : x.isNaN = false := decide_eq_false (by omega)
  rw [canonical, if_neg (Bool.eq_false_iff.1 number)]

/-- Between NaN and the finite values there are the two infinities. -/
theorem eq_infinity {x : Binary64} (number : x.isNaN = false) (infinite : x.isFinite = false) :
    x = infinity ∨ x = negativeInfinity := by
  have above : ¬infiniteMagnitude < x.magnitude := of_decide_eq_false number
  have below : ¬x.magnitude < infiniteMagnitude := of_decide_eq_false infinite
  have magnitude : x.magnitude = infiniteMagnitude := by omega
  rw [← ofMagnitude_magnitude x, magnitude]
  cases x.negative with
  | false => exact Or.inl rfl
  | true => exact Or.inr rfl

end Binary64

namespace Record

open Json (Codec)

/-! ### Values -/

namespace Quantity

/-- What comes back of a value: the spelling of a number that is not finite, and otherwise the value. -/
def settled : Quantity → Quantity
  | .number x => if x.isFinite then .number x else .ofBinary64 x
  | .text s => .text s
  | .null => .null

/-- A number in the place of a value reads back. Strings and null always do. -/
def ReadsBack : Quantity → Prop
  | .number x => x.ReadsBack
  | _ => True

instance (q : Quantity) : Decidable q.ReadsBack := by
  cases q <;> unfold ReadsBack <;> infer_instance

theorem spelling?_of_finite {x : Binary64} (finite : x.isFinite = true) : spelling? x = none := by
  have below : x.magnitude < Binary64.infiniteMagnitude := of_decide_eq_true finite
  have number : ¬x.isNaN = true := by
    rw [Binary64.isNaN, decide_eq_true_eq]
    omega
  have positive : x ≠ Binary64.infinity := by
    rintro rfl
    cases finite
  have negative : x ≠ Binary64.negativeInfinity := by
    rintro rfl
    cases finite
  rw [spelling?, if_neg number, if_neg positive, if_neg negative]

/-- A number that is not finite is spelled, and its spelling stands for it. -/
theorem spelling?_of_not_finite {x : Binary64} (infinite : x.isFinite = false) :
    ∃ s, spelling? x = some s ∧ spellings.lookup s = some x.canonical := by
  cases number : x.isNaN with
  | true =>
    refine ⟨"NaN", by rw [spelling?, if_pos number], ?_⟩
    rw [Binary64.canonical, if_pos number]
    rfl
  | false =>
    have same : x.canonical = x := if_neg (Bool.eq_false_iff.1 number)
    rw [same]
    rcases Binary64.eq_infinity number infinite with rfl | rfl
    · exact ⟨"Infinity", rfl, rfl⟩
    · exact ⟨"-Infinity", rfl, rfl⟩

theorem ofBinary64_of_not_finite {x : Binary64} (infinite : x.isFinite = false) :
    ∃ s, ofBinary64 x = .text s ∧ spellings.lookup s = some x.canonical := by
  obtain ⟨s, spelled, stands⟩ := spelling?_of_not_finite infinite
  exact ⟨s, by rw [ofBinary64, spelled], stands⟩

theorem mem_spellings_of_lookup {s : String} {x : Binary64} (stands : spellings.lookup s = some x) :
    (s, x) ∈ spellings := by
  obtain ⟨before, after, parts, -⟩ := List.lookup_eq_some_iff.1 stands
  rw [parts]
  exact List.mem_append_right _ List.mem_cons_self

theorem canonical_of_lookup {s : String} {x : Binary64} (stands : spellings.lookup s = some x) :
    x.canonical = x := by
  have entries : ∀ entry ∈ spellings, entry.2.canonical = entry.2 := by decide
  exact entries _ (mem_spellings_of_lookup stands)

/-- What comes back stands for the same double as the value, or fails as it does. -/
theorem toBinary64_settled (q : Quantity) :
    q.settled.toBinary64 = q.toBinary64.map Binary64.canonical := by
  cases q with
  | number x =>
    cases finite : x.isFinite with
    | true =>
      rw [settled, if_pos finite, toBinary64, Except.map, Binary64.canonical_of_finite finite]
    | false =>
      obtain ⟨s, spelled, stands⟩ := ofBinary64_of_not_finite finite
      simp only [settled, finite, Bool.false_eq_true, ↓reduceIte, spelled, toBinary64, stands]
      rfl
  | text s =>
    rw [settled, toBinary64]
    cases stands : spellings.lookup s with
    | none => rfl
    | some x => exact congrArg Except.ok (canonical_of_lookup stands).symm
  | null => rfl

theorem string_readsAs {q result : Quantity} {s : String} (written : q.write = Json.writeString s)
    (read : result = .text s) : codec.ReadsAs 0 q result := by
  have text : codec.write q = Json.writeString s := written
  refine ⟨?_, fun depth _ rest _ => ?_⟩
  · rw [text]
    exact Json.startsValue_cons rfl (by decide) _
  · have tree : Json.Value.read depth (Json.writeString s ++ rest) = .ok (.text s, rest) :=
      (Json.letters_written s.toList).read depth Json.blank_nil rest
    rw [text, read]
    simp only [codec, tree, ofValue, bind, Except.bind]

theorem readsAs {q : Quantity} (back : q.ReadsBack) : codec.ReadsAs 0 q q.settled := by
  cases q with
  | number x =>
    cases finite : x.isFinite with
    | true =>
      have denotes := Binary64.ReadsBack.denotes back finite
      have written : codec.write (.number x) = x.text := by
        change write (.number x) = _
        rw [write, spelling?_of_finite finite]
      rw [settled, if_pos finite]
      refine ⟨written ▸ denotes.startsValue, fun depth _ rest ends => ?_⟩
      have tree : Json.Value.read depth (x.text ++ rest) = .ok (.number (.real x), rest) :=
        denotes.read depth Json.blank_nil ends
      rw [written]
      simp only [codec, tree, ofValue, Json.Number.toBinary64, bind, Except.bind]
    | false =>
      obtain ⟨s, spelled, -⟩ := spelling?_of_not_finite finite
      apply string_readsAs (s := s)
      · rw [write, spelled]
      · rw [settled, if_neg (Bool.eq_false_iff.1 finite), ofBinary64, spelled]
  | text s => exact string_readsAs rfl rfl
  | null =>
    refine ⟨Json.startsValue_cons rfl (by decide) _, fun depth _ rest _ => ?_⟩
    have tree : Json.Value.read depth (['n', 'u', 'l', 'l'] ++ rest) = .ok (.null, rest) :=
      Json.Value.read_null depth Json.blank_nil rest
    simp only [codec, write, tree, ofValue, settled, bind, Except.bind]

end Quantity

theorem projection_readsAs (p : Projection) : Projection.codec.ReadsAs 0 p p := by
  refine ⟨Json.startsValue_cons rfl (by decide) _, fun depth _ rest _ => ?_⟩
  exact Json.Codec.readNamed_written (by cases p <;> rfl) depth rest

/-! ### Records -/

/-- A sample comes back with the settled value. -/
def SampleRecord.settled (r : SampleRecord) : SampleRecord := { r with value := r.value.settled }

theorem SampleRecord.readsAs {r : SampleRecord} (back : r.value.ReadsBack) :
    codec.ReadsAs 1 r r.settled := by
  have law : fields.ReadsAs 0 (r.key, r.value, r.timestamp, r.step, ())
      (r.key, r.value.settled, r.timestamp, r.step, ()) :=
    ⟨Codec.text_readsAs _, Quantity.readsAs back, Codec.int64_readsAs _, Codec.int64_readsAs _,
      trivial⟩
  exact Codec.record_readsAs law (by decide) rfl rfl

theorem SampleRecord.list_readsAs {samples : List SampleRecord}
    (back : ∀ r ∈ samples, r.value.ReadsBack) :
    (Codec.list codec).ReadsAs 2 samples (samples.map settled) :=
  Codec.list_readsAs fun r member => readsAs (back r member)

def HistoryRecord.settled (r : HistoryRecord) : HistoryRecord :=
  { r with samples := r.samples.map .settled }

theorem HistoryRecord.readsAs {r : HistoryRecord} (back : ∀ s ∈ r.samples, s.value.ReadsBack) :
    codec.ReadsAs 3 r r.settled := by
  have shallow : 0 ≤ 2 := Nat.zero_le 2
  have law : fields.ReadsAs 2 (r.run, r.key, r.samples, ())
      (r.run, r.key, r.samples.map .settled, ()) :=
    ⟨(Codec.text_readsAs _).mono shallow, (Codec.text_readsAs _).mono shallow,
      SampleRecord.list_readsAs back, trivial⟩
  exact Codec.record_readsAs law (by decide) rfl rfl

theorem NoteRecord.readsAs (r : NoteRecord) : codec.ReadsAs 1 r r := by
  have law : fields.ReadsAs 0 (r.key, r.value, ()) (r.key, r.value, ()) :=
    ⟨Codec.text_readsAs _, Codec.text_readsAs _, trivial⟩
  exact Codec.record_readsAs law (by decide) rfl rfl

theorem NoteRecord.list_readsAs (notes : List NoteRecord) :
    (Codec.list codec).ReadsAs 2 notes notes := by
  have same : ∀ r ∈ notes, codec.ReadsAs 1 r (id r) := fun r _ => r.readsAs
  have law := Codec.list_readsAs same
  rwa [List.map_id] at law

def OverviewRecord.settled (r : OverviewRecord) : OverviewRecord :=
  { r with
    latest := r.latest.map .settled
    lowest := r.lowest.map .settled
    highest := r.highest.map .settled }

/-- All records of samples, in the order in which they are read. -/
def OverviewRecord.samples (r : OverviewRecord) : List SampleRecord :=
  r.latest ++ r.lowest ++ r.highest

theorem OverviewRecord.readsAs {r : OverviewRecord} (back : ∀ s ∈ r.samples, s.value.ReadsBack) :
    codec.ReadsAs 3 r r.settled := by
  simp only [samples, List.mem_append, or_imp, forall_and] at back
  obtain ⟨⟨latest, lowest⟩, highest⟩ := back
  have law : fields.ReadsAs 2 (r.latest, r.lowest, r.highest, r.params, r.tags, ())
      (r.latest.map .settled, r.lowest.map .settled, r.highest.map .settled, r.params, r.tags, ()) :=
    ⟨SampleRecord.list_readsAs latest, SampleRecord.list_readsAs lowest,
      SampleRecord.list_readsAs highest, NoteRecord.list_readsAs _, NoteRecord.list_readsAs _, trivial⟩
  exact Codec.record_readsAs law (by decide) rfl rfl

def ProjectionRow.settled (r : ProjectionRow) : ProjectionRow :=
  { r with value := r.value.settled }

theorem ProjectionRow.readsAs {r : ProjectionRow} (back : r.value.ReadsBack) :
    codec.ReadsAs 1 r r.settled := by
  have law : fields.ReadsAs 0
      (r.key, r.run, r.projection, r.value, r.timestamp, r.step, r.isNaN, ())
      (r.key, r.run, r.projection, r.value.settled, r.timestamp, r.step, r.isNaN, ()) :=
    ⟨Codec.text_readsAs _, Codec.text_readsAs _, projection_readsAs _, Quantity.readsAs back,
      Codec.int64_readsAs _, Codec.int64_readsAs _, Codec.bool_readsAs _, trivial⟩
  exact Codec.record_readsAs law (by decide) rfl rfl

theorem settings_readsAs (settings : Settings) : Settings.codec.ReadsAs 1 settings settings := by
  have law : Settings.fields.ReadsAs 0 (settings.allowNegative, settings.expectedRuns, ())
      (settings.allowNegative, settings.expectedRuns, ()) :=
    ⟨Codec.bool_readsAs _, Codec.uint64_readsAs _, trivial⟩
  exact Codec.record_readsAs law (by decide) rfl rfl

theorem decode_encode {α : Type} {codec : Codec α} {levels : Nat} {value result : α}
    (law : codec.ReadsAs levels value result) (shallow : levels ≤ Json.nestingLimit) :
    decode codec (encode codec value) = .ok result := by
  rw [decode, encode, law.decode_encode shallow]
  rfl

/-- Every record is decoded from its own text if the finite numbers in it read back, and what comes back is
the record itself, bit for bit, but for each number in it that is not finite, in whose place stands the text
that spells it. Every value that comes back stands for the same double as before, all NaN being one, or
fails with the same failure. -/
theorem wire_is_lossless :
    (∀ q : Quantity, q.ReadsBack →
        decode Quantity.codec (encode Quantity.codec q) = .ok q.settled) ∧
      (∀ r : SampleRecord, r.value.ReadsBack →
        decode SampleRecord.codec (encode SampleRecord.codec r) = .ok r.settled) ∧
      (∀ r : HistoryRecord, (∀ s ∈ r.samples, s.value.ReadsBack) →
        decode HistoryRecord.codec (encode HistoryRecord.codec r) = .ok r.settled) ∧
      (∀ r : NoteRecord, decode NoteRecord.codec (encode NoteRecord.codec r) = .ok r) ∧
      (∀ r : OverviewRecord, (∀ s ∈ r.samples, s.value.ReadsBack) →
        decode OverviewRecord.codec (encode OverviewRecord.codec r) = .ok r.settled) ∧
      (∀ r : ProjectionRow, r.value.ReadsBack →
        decode ProjectionRow.codec (encode ProjectionRow.codec r) = .ok r.settled) ∧
      (∀ p : Projection, decode Projection.codec (encode Projection.codec p) = .ok p) ∧
      (∀ s : Settings, decode Settings.codec (encode Settings.codec s) = .ok s) ∧
      (∀ x : Binary64, x.isFinite = true ∧ Quantity.settled (.number x) = .number x ∨
        x.isFinite = false ∧ ∃ s, Quantity.ofBinary64 x = .text s ∧
          Quantity.settled (.number x) = .text s) ∧
      ∀ q : Quantity, q.settled.toBinary64 = q.toBinary64.map Binary64.canonical := by
  refine ⟨fun _ back => decode_encode (Quantity.readsAs back) (by decide),
    fun _ back => decode_encode (SampleRecord.readsAs back) (by decide),
    fun _ back => decode_encode (HistoryRecord.readsAs back) (by decide),
    fun r => decode_encode r.readsAs (by decide),
    fun _ back => decode_encode (OverviewRecord.readsAs back) (by decide),
    fun _ back => decode_encode (ProjectionRow.readsAs back) (by decide),
    fun p => decode_encode (projection_readsAs p) (by decide),
    fun s => decode_encode (settings_readsAs s) (by decide), fun x => ?_,
    Quantity.toBinary64_settled⟩
  cases finite : x.isFinite with
  | true => exact Or.inl ⟨rfl, if_pos finite⟩
  | false =>
    obtain ⟨s, spelled, -⟩ := Quantity.ofBinary64_of_not_finite finite
    refine Or.inr ⟨rfl, s, spelled, ?_⟩
    rw [Quantity.settled, if_neg (Bool.eq_false_iff.1 finite), spelled]

/-- A number with a fraction and NaN with a payload stand beside strings that must be escaped. -/
theorem history_with_odd_strings_is_lossless :
    let nan : Binary64 := ⟨0xfff8000000000001⟩
    let third : SampleRecord := ⟨"\"\\\n\x01é", .number ⟨0xbfd5555555555555⟩, -1, 0x7fffffffffffffff⟩
    let history : HistoryRecord := ⟨"run", "", [third, { third with value := .number nan }]⟩
    decode HistoryRecord.codec (encode HistoryRecord.codec history) =
        .ok { history with samples := [third, { third with value := .text "NaN" }] } ∧
      (Quantity.settled (.number nan)).toBinary64 = .ok .nan := by
  intro nan third history
  obtain ⟨-, -, histories, -, -, -, -, -, -, numeric⟩ := wire_is_lossless
  have back : ∀ s ∈ history.samples, s.value.ReadsBack := by decide +kernel
  have settled : history.settled =
      { history with samples := [third, { third with value := .text "NaN" }] } := by decide
  exact ⟨(histories history back).trans (congrArg Except.ok settled),
    (numeric (.number nan)).trans (by decide)⟩

end Record

end RunMetrics

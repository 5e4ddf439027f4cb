import RunMetrics.Proofs.HistoryRoundTrip
import RunMetrics.Proofs.RecordLayout

/-!
Spellings of values. A number that is read is finite, so it is written as it stands; a string may spell a
value that is not finite in more than one way, and only one of them is written. So what a record says of its
value comes back from the sample just if it does not say it in one of the other spellings.
-/

set_option autoImplicit false

namespace RunMetrics

/-! ### Numbers that are read are finite -/

namespace Json

theorem Numeral.clipped_digits_lt (n : Numeral) : n.clipped.digits < Decimal.wordBound :=
  Decimal.fill_lt (Decimal.fill_lt (by decide) n.whole) (n.fraction.getD [])

theorem Number.isFinite_ofNumeral {parts : Numeral} {n : Number} (made : ofNumeral parts = .ok n) :
    n.toBinary64.isFinite = true := by
  unfold ofNumeral at made
  simp only at made
  generalize (if parts.negative = true then -(Decimal.ofDigits parts.whole : Int)
    else Decimal.ofDigits parts.whole) = value at made
  split at made
  · rename_i integer
    obtain ⟨-, -, low, high, -⟩ := integer
    cases made
    apply Binary64.isFinite_ofMagnitude
    apply Binary64.nearestMagnitude_lt_infinite
    rw [leastInteger] at low
    rw [integerBound] at high
    omega
  · split at made
    · rename_i found
      cases made
      exact Binary64.isFinite_of_scaled? parts.clipped_digits_lt found
    · cases made

theorem isFinite_number {cs rest : List Char} {n : Number} (read : number cs = .ok (n, rest)) :
    n.toBinary64.isFinite = true := by
  obtain ⟨⟨parts, others⟩, -, read⟩ := bind_eq_ok_iff.1 read
  obtain ⟨value, made, same⟩ := bind_eq_ok_iff.1 read
  cases same
  exact Number.isFinite_ofNumeral made

/-- Only what starts like a number is read as one. -/
theorem Value.isFinite_read {depth : Nat} {cs rest : List Char} {n : Number}
    (read : Value.read depth cs = .ok (.number n, rest)) : n.toBinary64.isFinite = true := by
  unfold Value.read at read
  -- Every branch but one gives a value of another kind, or none.
  repeat' split at read
  case h_2.isFalse.isFalse.isFalse.isTrue =>
    obtain ⟨⟨m, others⟩, taken, same⟩ := bind_eq_ok_iff.1 read
    cases same
    exact isFinite_number taken
  all_goals
    first
    | cases read
    | obtain ⟨_, -, same⟩ := bind_eq_ok_iff.1 read
      cases same

/-! ### What the fields of a record were read from -/

/-- The reader of the codec gives the value, for some text. -/
def Codec.Yields {α : Type} (codec : Codec α) (value : α) : Prop :=
  ∃ depth cs rest, codec.read depth cs = .ok (value, rest)

namespace Fields

/-- Each value was read as its field, or stands for the absence of its field. -/
def Yields : {types : List Type} → Fields types → Tuple types → Prop
  | [], .nil, _ => True
  | _ :: _, .cons _ codec absent rest, (value, values) =>
    (codec.Yields value ∨ absent = some value) ∧ rest.Yields values

/-- Each value that was found was read as its field. -/
def Holds : {types : List Type} → Fields types → Slots types → Prop
  | [], .nil, _ => True
  | _ :: _, .cons _ codec _ rest, (slot, slots) =>
    (∀ value, slot = some value → codec.Yields value) ∧ rest.Holds slots

theorem holds_empty : {types : List Type} → (fields : Fields types) → fields.Holds (Slots.empty types)
  | [], .nil => trivial
  | _ :: _, .cons _ _ _ rest => ⟨nofun, rest.holds_empty⟩

theorem Holds.offer {depth : Nat} {key : String} {types : List Type} {fields : Fields types}
    {slots next : Slots types} {cs rest : List Char} (holds : fields.Holds slots)
    (taken : fields.offer depth key slots cs = .ok (next, rest)) : fields.Holds next := by
  induction fields with
  | nil => trivial
  | cons name codec absent others ih =>
    obtain ⟨slot, slots⟩ := slots
    obtain ⟨first, later⟩ := holds
    rw [Fields.offer] at taken
    split at taken
    · cases slot with
      | some value => cases taken
      | none =>
        obtain ⟨more, -, taken⟩ := bind_eq_ok_iff.1 taken
        obtain ⟨⟨value, left⟩, read, same⟩ := bind_eq_ok_iff.1 taken
        cases same
        refine ⟨?_, later⟩
        rintro _ ⟨⟩
        exact ⟨depth, more, rest, read⟩
    · obtain ⟨⟨others, left⟩, taken, same⟩ := bind_eq_ok_iff.1 taken
      cases same
      exact ⟨first, ih later taken⟩

theorem Holds.close {types : List Type} {fields : Fields types} {slots : Slots types}
    {values : Tuple types} (holds : fields.Holds slots) (closed : fields.close slots = .ok values) :
    fields.Yields values := by
  induction fields with
  | nil => trivial
  | cons name codec absent others ih =>
    obtain ⟨slot, slots⟩ := slots
    obtain ⟨first, later⟩ := holds
    obtain ⟨value, found, closed⟩ := bind_eq_ok_iff.1 closed
    obtain ⟨rest, others, same⟩ := bind_eq_ok_iff.1 closed
    cases same
    refine ⟨?_, ih later others⟩
    cases slot with
    | some held =>
      cases found
      exact Or.inl (first value rfl)
    | none =>
      cases absent with
      | some fixed =>
        cases found
        exact Or.inr rfl
      | none => cases found

theorem yields_absentees {expected : String} {types : List Type} {fields : Fields types}
    {count : Nat} {values : Tuple types} (made : fields.absentees expected count = .ok values) :
    fields.Yields values := by
  induction fields generalizing count with
  | nil => trivial
  | cons name codec absent others ih =>
    cases absent with
    | none => cases made
    | some fixed =>
      obtain ⟨rest, later, same⟩ := bind_eq_ok_iff.1 made
      cases same
      exact ⟨Or.inr rfl, ih later⟩

theorem yields_elements {expected : String} {depth : Nat} {types : List Type} {fields : Fields types}
    {count : Nat} {cs rest : List Char} {values : Tuple types}
    (read : fields.elements expected depth count cs = .ok (values, rest)) : fields.Yields values := by
  induction fields generalizing count cs with
  | nil => trivial
  | cons name codec absent others ih =>
    obtain ⟨next, -, read⟩ := bind_eq_ok_iff.1 read
    cases next with
    | close more =>
      obtain ⟨values, made, same⟩ := bind_eq_ok_iff.1 read
      cases same
      exact yields_absentees made
    | item more =>
      obtain ⟨⟨value, left⟩, first, read⟩ := bind_eq_ok_iff.1 read
      obtain ⟨⟨values, last⟩, later, same⟩ := bind_eq_ok_iff.1 read
      cases same
      exact ⟨Or.inl ⟨depth, more, left, first⟩, ih later⟩

end Fields

/-- What every member preserves, an object preserves. -/
theorem members_preserves {σ : Type} {mode : Mode} {member : σ → Reader σ} (kept : σ → Prop)
    (step : ∀ state next cs rest, kept state → member state cs = .ok (next, rest) → kept next)
    {left : Nat} {first : Bool} {start last : σ} {cs rest : List Char} (begun : kept start)
    (read : members mode member left first start cs = .ok (last, rest)) : kept last := by
  induction left generalizing first start cs with
  | zero => cases read
  | succ left ih =>
    obtain ⟨next, -, read⟩ := bind_eq_ok_iff.1 read
    cases next with
    | close more =>
      cases read
      exact begun
    | item more =>
      obtain ⟨⟨state, others⟩, taken, read⟩ := bind_eq_ok_iff.1 read
      exact ih (step start state more others begun taken) read

namespace Codec

theorem yields_readFields {types : List Type} {name : RecordName} {fields : Fields types}
    {depth : Nat} {cs rest : List Char} {values : Tuple types}
    (read : readFields name fields depth cs = .ok (values, rest)) : fields.Yields values := by
  unfold readFields at read
  split at read
  · cases read
  · split at read
    · cases depth with
      | zero => cases read
      | succ depth => exact Fields.yields_elements read
    · split at read
      · cases depth with
        | zero => cases read
        | succ depth =>
          obtain ⟨⟨slots, more⟩, taken, read⟩ := bind_eq_ok_iff.1 read
          obtain ⟨values, closed, same⟩ := bind_eq_ok_iff.1 read
          cases same
          refine Fields.Holds.close ?_ closed
          refine members_preserves fields.Holds ?_ fields.holds_empty taken
          intro state next cs rest holds offered
          obtain ⟨⟨key, others⟩, -, offered⟩ := bind_eq_ok_iff.1 offered
          exact holds.offer offered
      · cases read

/-- A record that is decoded is made up of values that were read as its fields. -/
theorem yields_of_decode {types : List Type} {ρ : Type} {name : RecordName} {fields : Fields types}
    {assemble : Tuple types → ρ} {parts : ρ → Tuple types} {text : String} {value : ρ}
    (decoded : (record name fields assemble parts).decode text = .ok value) :
    ∃ values, assemble values = value ∧ fields.Yields values := by
  obtain ⟨⟨made, rest⟩, read, ended⟩ := bind_eq_ok_iff.1 decoded
  obtain ⟨⟨values, more⟩, found, same⟩ := bind_eq_ok_iff.1 read
  cases same
  change (if (skipBlank rest).isEmpty then _ else _) = _ at ended
  split at ended
  · cases ended
    exact ⟨values, rfl, yields_readFields found⟩
  · cases ended

end Codec

end Json

namespace Record

/-! ### Values of samples -/

namespace Quantity

/-- The strings that stand for values and are never written. -/
def variants : List String := ["nan", "inf", "+Infinity", "-inf"]

theorem isFinite_of_yields {x : Binary64} (yields : codec.Yields (.number x)) :
    x.isFinite = true := by
  obtain ⟨depth, cs, rest, read⟩ := yields
  obtain ⟨⟨value, more⟩, tree, read⟩ := Json.bind_eq_ok_iff.1 read
  obtain ⟨quantity, kind, same⟩ := Json.bind_eq_ok_iff.1 read
  cases same
  cases value with
  | number n =>
    cases kind
    exact Json.Value.isFinite_read tree
  | _ => cases kind

/-- A value that was read is written as it was read, unless it was spelled in a variant. -/
theorem ofBinary64_eq_iff {q : Quantity} (yields : codec.Yields q) {x : Binary64}
    (stands : q.toBinary64 = .ok x) : ofBinary64 x = q ↔ ∀ s ∈ variants, q ≠ .text s := by
  cases q with
  | number y =>
    cases stands
    rw [ofBinary64, spelling?_of_finite (isFinite_of_yields yields)]
    refine iff_of_true rfl fun s _ same => ?_
    cases same
  | text s =>
    have member : (s, x) ∈ spellings := by
      rw [toBinary64] at stands
      split at stands
      · rename_i found
        cases stands
        exact mem_spellings_of_lookup found
      · cases stands
    have entries : ∀ entry ∈ spellings,
        ofBinary64 entry.2 = .text entry.1 ↔ ∀ s ∈ variants, text entry.1 ≠ .text s := by
      decide
    exact entries _ member
  | null => cases stands

end Quantity

namespace SampleRecord

theorem yields_value {text : String} {r : SampleRecord} (decoded : decode codec text = .ok r) :
    Quantity.codec.Yields r.value := by
  obtain ⟨⟨key, value, timestamp, step, ⟨⟩⟩, rfl, yields⟩ :=
    Json.Codec.yields_of_decode (decode_eq_ok_iff.1 decoded)
  obtain ⟨-, found | absent, -⟩ := yields
  · exact found
  · cases absent

/-- A decoded record whose sample is valid is what the sample is written as, unless its value is spelled in
one of the variants that are never written. Its value is a finite number or one of seven strings; any other
string is refused, and so is null. -/
theorem decoded_is_written_iff (text : String) (allowNegative : Bool) (r : SampleRecord)
    (decoded : decode codec text = .ok r) :
    (∀ s, r.toSample allowNegative = .ok s →
      (ofSample s = r ↔ ∀ variant ∈ Quantity.variants, r.value ≠ .text variant)) ∧
      (∀ x, r.value = .number x → x.isFinite = true) ∧
      (∀ t, r.value = .text t →
        t ∉ ["NaN", "Infinity", "-Infinity"] → t ∉ Quantity.variants →
          r.toSample allowNegative = .error (.refused (.notNumeric t))) ∧
      (r.value = .null → r.toSample allowNegative = .error (.refused .nullNumber)) := by
  have yields := yields_value decoded
  refine ⟨fun s made => ?_, fun x number => ?_, fun t spelled canonical other => ?_, fun null => ?_⟩
  · obtain ⟨x, stands, rfl⟩ := toSample_eq_ok made
    rw [← Quantity.ofBinary64_eq_iff yields stands]
    cases r
    simp only [ofSample, SampleRecord.mk.injEq, true_and, and_true]
  · rw [number] at yields
    exact Quantity.isFinite_of_yields yields
  · have unknown : Quantity.spellings.lookup t = none := by
      by_contra known
      obtain ⟨x, found⟩ := Option.ne_none_iff_exists'.1 known
      have entries : ∀ entry ∈ Quantity.spellings,
          entry.1 ∈ ["NaN", "Infinity", "-Infinity"] ∨ entry.1 ∈ Quantity.variants := by decide
      exact (entries _ (Quantity.mem_spellings_of_lookup found)).elim canonical other
    rw [toSample, spelled, Quantity.toBinary64, unknown]
    rfl
  · rw [toSample, null]
    rfl

theorem infinity_is_written_as_decoded :
    let r : SampleRecord := ⟨"loss", .text "Infinity", 1, 0⟩
    ∃ s, r.toSample false = .ok s ∧ ofSample s = r := by
  intro r
  have decoded : decode codec (encode codec r) = .ok r := decode_encode (readsAs trivial) (by decide)
  have made : r.toSample false = .ok ⟨"loss", .infinity, 1, 0⟩ := by decide
  exact ⟨_, made, ((decoded_is_written_iff _ false r decoded).1 _ made).2 (by decide)⟩

/-- A decoded record may stand for a valid sample and not be what that sample is written as. -/
theorem variant_is_not_written_as_decoded :
    ¬ ∀ (text : String) (allowNegative : Bool) (r : SampleRecord) (s : Sample),
      decode codec text = .ok r → r.toSample allowNegative = .ok s → ofSample s = r := by
  intro promise
  let r : SampleRecord := ⟨"loss", .text "nan", 1, 0⟩
  have decoded : decode codec (encode codec r) = .ok r := decode_encode (readsAs trivial) (by decide)
  have same := promise _ false r ⟨"loss", .nan, 1, 0⟩ decoded (by decide)
  exact absurd same (by decide)

end SampleRecord

end Record

end RunMetrics

import RunMetrics.Json.Record
import RunMetrics.Proofs.SequenceText

/-!
Codecs that read back what they write. The law of a codec speaks of one value and of any text that may
follow it, so that the law of a list or a record comes from those of its parts: what is written is one of
the layouts of an array or an object, the one without blanks.
-/

set_option autoImplicit false

namespace RunMetrics.Json

namespace Codec

variable {α : Type}

/-- What the codec writes for a value is read as the result, whatever ends a value behind it, where at
least so many brackets may be nested. -/
structure ReadsAs (codec : Codec α) (levels : Nat) (value result : α) : Prop where
  starts : StartsValue (codec.write value)
  reads : ∀ depth, levels ≤ depth → ∀ rest, EndsValue rest →
    codec.read depth (codec.write value ++ rest) = .ok (result, rest)

theorem ReadsAs.mono {codec : Codec α} {levels more : Nat} {value result : α}
    (law : codec.ReadsAs levels value result) (deeper : levels ≤ more) :
    codec.ReadsAs more value result :=
  ⟨law.starts, fun depth deep => law.reads depth (Nat.le_trans deeper deep)⟩

/-- A whole text is read as the result if it may be nested deep enough. -/
theorem ReadsAs.decode_encode {codec : Codec α} {levels : Nat} {value result : α}
    (law : codec.ReadsAs levels value result) (shallow : levels ≤ nestingLimit) :
    codec.decode (codec.encode value) = .ok result := by
  have whole := law.reads nestingLimit shallow [] .nothing
  rw [List.append_nil] at whole
  rw [decode, encode, readAll, String.toList_ofList, whole]
  rfl

/-! ### Scalars -/

theorem text_readsAs (s : String) : text.ReadsAs 0 s s := by
  refine ⟨startsValue_cons rfl (by decide) _, fun depth _ rest _ => ?_⟩
  change readText ('"' :: (s.toList.flatMap writtenChar ++ ['"']) ++ rest) = _
  rw [List.cons_append, List.append_assoc, List.singleton_append, readText, skipBlank_cons rfl]
  exact string_written s rest

theorem bool_readsAs (b : Bool) : bool.ReadsAs 0 b b := by
  cases b with
  | true => exact ⟨startsValue_cons rfl (by decide) _, fun depth _ rest _ => rfl⟩
  | false => exact ⟨startsValue_cons rfl (by decide) _, fun depth _ rest _ => rfl⟩

theorem readInteger_written {low high value : Int} (least : leastInteger ≤ low)
    (bound : high ≤ integerBound) (above : low ≤ value) (below : value < high) (expected : String)
    {rest : List Char} (ends : EndsValue rest) :
    readInteger low high expected (writeInteger value ++ rest) = .ok (value, rest) := by
  have denotes := denotes_writeInteger (Int.le_trans least above) (Int.lt_of_lt_of_le below bound)
  have read := denotes.number ends
  obtain ⟨c, more, written, starts⟩ := denotes.head
  rw [written, List.cons_append] at read ⊢
  rw [readInteger, skipBlank_cons (isBlank_of_startsNumber starts)]
  simp only [starts, ↓reduceIte, read, bind, Except.bind, above, below, and_self]

theorem int64_readsAs (value : Int64) : int64.ReadsAs 0 value value := by
  have low : -0x8000000000000000 ≤ value.toInt := value.minValue_le_toInt
  have high : value.toInt < 0x8000000000000000 := value.toInt_lt
  refine ⟨(denotes_writeInteger low (by simp only [integerBound]; omega)).startsValue,
    fun depth _ rest ends => ?_⟩
  have read := readInteger_written (by decide) (by decide) low high "i64" ends
  simp only [int64, read, bind, Except.bind, Int64.ofInt_toInt]

theorem uint64_readsAs (value : UInt64) : uint64.ReadsAs 0 value value := by
  have bound := value.toNat_lt
  have low : (0 : Int) ≤ value.toNat := Int.natCast_nonneg _
  have high : (value.toNat : Int) < 0x10000000000000000 := by omega
  refine ⟨(denotes_writeInteger (by simp only [leastInteger]; omega) high).startsValue,
    fun depth _ rest ends => ?_⟩
  have read := readInteger_written (by decide) (by decide) low high "usize" ends
  simp only [uint64, read, bind, Except.bind, Int.toNat_natCast, UInt64.ofNat_toNat]

/-- A value of a fixed list is read by its name. -/
theorem readNamed_written {names : List (String × α)} {name : String} {value : α}
    (listed : names.lookup name = some value) (depth : Nat) (rest : List Char) :
    readNamed names depth (writeString name ++ rest) = .ok (value, rest) := by
  rw [writeString, List.cons_append, List.append_assoc, List.singleton_append, readNamed,
    skipBlank_cons rfl]
  simp only [↓reduceIte, string_written, named, listed, bind, Except.bind]

end Codec

/-! ### Arrays -/

namespace Codec

/-- A list reads back if its elements do. -/
theorem list_readsAs {α : Type} {item : Codec α} {levels : Nat} {settle : α → α} {values : List α}
    (law : ∀ v ∈ values, item.ReadsAs levels v (settle v)) :
    (list item).ReadsAs (levels + 1) values (values.map settle) := by
  refine ⟨startsValue_cons rfl (by decide) _, fun depth deep rest _ => ?_⟩
  obtain ⟨depth, rfl⟩ : ∃ d, depth = d + 1 := ⟨depth - 1, by omega⟩
  have elements : ∀ v ∈ values, Takes (item.read depth) (Part.bare (item.write v)).core
      (.ok (settle v)) := fun v member =>
    ⟨(law v member).starts, fun behind ends => (law v member).reads depth (by omega) behind ends⟩
  have judged : (values.mapM fun v => (.ok (settle v) : Except Fault α)) =
      .ok (values.map settle) := List.mapM_pure
  have read := list_parts elements .take blank_nil rest
  simp only [Part.text_bare, List.nil_append, judged] at read
  change (list item).read (depth + 1) ('[' :: (commaSeparated (values.map item.write) ++ [']']) ++
    rest) = _
  rw [List.cons_append, List.append_assoc, List.singleton_append]
  simp only [list, skipBlank_cons (c := '[') rfl, ↓reduceIte, read]
  rfl

end Codec

/-! ### Objects -/

/-- A member as it is written. -/
def writtenEntry (m : String × List Char) : Entry where
  before := []
  letters := m.1.toList.flatMap writtenChar
  key := m.1
  gap := []
  value := .bare m.2
  blank_before := blank_nil
  spelled := letters_written m.1.toList
  blank_gap := blank_nil

theorem text_writtenEntry (m : String × List Char) :
    (writtenEntry m).text = writeString m.1 ++ ':' :: m.2 := by
  simp only [writtenEntry, Entry.text, Entry.inner, Part.bare, writeString, List.nil_append,
    List.append_nil, List.cons_append, List.append_assoc]

theorem writeObject_eq (members : List (String × List Char)) (rest : List Char) :
    writeObject members ++ rest =
      '\x7b' :: (commaSeparated ((members.map writtenEntry).map Entry.text) ++ '\x7d' :: rest) := by
  have texts : (members.map fun m => writeString m.1 ++ ':' :: m.2) =
      (members.map writtenEntry).map Entry.text := by
    rw [List.map_map]
    exact List.map_congr_left fun m _ => (text_writtenEntry m).symm
  rw [writeObject, texts, List.cons_append, List.append_assoc, List.singleton_append]

/-! ### Records -/

namespace Fields

/-- The slots in which every field has been found. -/
def filled : {types : List Type} → Tuple types → Slots types
  | [], _ => ()
  | _ :: _, (value, values) => (some value, filled values)

def names : {types : List Type} → Fields types → List String
  | [], .nil => []
  | _ :: _, .cons name _ _ rest => name :: rest.names

/-- Every field reads its value as the result in the same place. -/
def ReadsAs (levels : Nat) : {types : List Type} → Fields types → Tuple types → Tuple types → Prop
  | [], .nil, _, _ => True
  | _ :: _, .cons _ codec _ rest, (value, values), (result, results) =>
    codec.ReadsAs levels value result ∧ rest.ReadsAs levels values results

theorem map_fst_write {types : List Type} (fields : Fields types) (values : Tuple types) :
    (fields.write values).map Prod.fst = fields.names := by
  induction fields with
  | nil => rfl
  | cons name codec absent rest ih =>
    obtain ⟨value, values⟩ := values
    exact congrArg (name :: ·) (ih values)

theorem close_filled {types : List Type} (fields : Fields types) (results : Tuple types) :
    fields.close (filled results) = .ok results := by
  induction fields with
  | nil => rfl
  | cons name codec absent rest ih =>
    obtain ⟨result, results⟩ := results
    simp only [filled, close, fallback, ih results, bind, Except.bind]

/-- A member is offered to the fields by its key, however that is spelled. -/
theorem member_entry {types : List Type} (fields : Fields types) (depth : Nat)
    (slots : Slots types) (e : Entry) (rest : List Char) :
    fields.member depth slots (e.inner ++ rest) =
      fields.offer depth e.key slots
        (e.gap ++ ':' :: (e.value.before ++ (e.value.core ++ rest))) := by
  rw [member, e.string_inner]
  rfl

theorem member_cons_of_ne {α : Type} {types : List Type} {name : String} (codec : Codec α)
    (absent : Option α) (rest : Fields types) (depth : Nat) (slot : Option α)
    (slots : Slots types) {e : Entry} (apart : e.key ≠ name) (after : List Char) :
    (cons name codec absent rest).member depth (slot, slots) (e.inner ++ after) =
      (rest.member depth slots (e.inner ++ after)).map fun read => ((slot, read.1), read.2) := by
  refine (member_entry (cons name codec absent rest) depth (slot, slots) e after).trans ?_
  rw [member_entry]
  simp only [offer, if_neg apart]
  cases rest.offer depth e.key slots _ <;> rfl

/-- Members of other names go past a field. -/
theorem passes_cons {α : Type} {types : List Type} {name : String} {codec : Codec α}
    {absent : Option α} {rest : Fields types} {depth : Nat} {slots : Slots types}
    {outcome : Except Fault (Slots types)} {entries : List Entry}
    (passes : Passes (rest.member depth) slots entries outcome) (slot : Option α)
    (apart : name ∉ entries.map Entry.key) :
    Passes ((cons name codec absent rest).member depth) (slot, slots) entries
      (outcome.map (slot, ·)) := by
  induction passes with
  | nil slots => exact .nil _
  | cons taken others ih =>
    rw [List.map_cons, List.mem_cons, not_or] at apart
    refine .cons (fun after ends => ?_) (ih apart.2)
    rw [member_cons_of_ne _ _ _ _ _ _ (Ne.symm apart.1), taken after ends]
    rfl
  | stop entries refused =>
    rw [List.map_cons, List.mem_cons, not_or] at apart
    refine .stop entries fun after ends => ?_
    rw [member_cons_of_ne _ _ _ _ _ _ (Ne.symm apart.1), refused after ends]
    rfl

/-- The written fields fill all slots, if no two have one name. -/
theorem ReadsAs.passes {types : List Type} {fields : Fields types} {levels depth : Nat}
    {values results : Tuple types} (law : fields.ReadsAs levels values results)
    (distinct : fields.names.Nodup) (deep : levels ≤ depth) :
    Passes (fields.member depth) (Slots.empty types) ((fields.write values).map writtenEntry)
      (.ok (filled results)) := by
  induction fields with
  | nil => exact .nil _
  | cons name codec absent rest ih =>
    obtain ⟨value, values⟩ := values
    obtain ⟨result, results⟩ := results
    obtain ⟨first, others⟩ := law
    obtain ⟨fresh, distinct⟩ := List.nodup_cons.1 distinct
    have taken (after : List Char) (ends : EndsValue after) :
        (cons name codec absent rest).member depth (none, Slots.empty _)
          ((writtenEntry (name, codec.write value)).inner ++ after) =
            .ok ((some result, Slots.empty _), after) := by
      have read := first.reads depth deep after ends
      have colon : colon (':' :: (codec.write value ++ after)) =
          .ok (codec.write value ++ after) := rfl
      refine (member_entry (cons name codec absent rest) depth (none, Slots.empty _) _ after).trans ?_
      simp only [offer, writtenEntry, Part.bare, List.nil_append, colon, read, ↓reduceIte, bind,
        Except.bind]
    have apart : name ∉ ((rest.write values).map writtenEntry).map Entry.key := by
      rw [List.map_map]
      exact (map_fst_write rest values).symm ▸ fresh
    exact .cons taken (passes_cons (ih others distinct) (some result) apart)

end Fields

/-- A record reads back if its fields do. -/
theorem Codec.record_readsAs {types : List Type} {ρ : Type} {name : RecordName}
    {fields : Fields types} {assemble : Tuple types → ρ} {parts : ρ → Tuple types} {levels : Nat}
    {value result : ρ} {values results : Tuple types} (law : fields.ReadsAs levels values results)
    (distinct : fields.names.Nodup) (split : parts value = values)
    (joined : assemble results = result) :
    (record name fields assemble parts).ReadsAs (levels + 1) value result := by
  subst split joined
  refine ⟨startsValue_cons rfl (by decide) _, fun depth deep rest _ => ?_⟩
  obtain ⟨depth, rfl⟩ : ∃ d, depth = d + 1 := ⟨depth - 1, by omega⟩
  have passes := law.passes distinct (by omega : levels ≤ depth)
  have read := passes.object .take blank_nil rest
  have closed := fields.close_filled results
  have object : readFields name fields (depth + 1)
      (writeObject (fields.write (parts value)) ++ rest) = .ok (results, rest) := by
    rw [List.nil_append] at read
    rw [writeObject_eq, readFields, skipBlank_cons rfl]
    simp only [Char.reduceEq, ↓reduceIte, read, Except.map, closed, bind, Except.bind]
  simp only [record, object, bind, Except.bind]

/-! ### Trees -/

section Trees

variable {before rest : List Char}

theorem Value.read_null (depth : Nat) (blank : Blank before) (rest : List Char) :
    Value.read depth (before ++ (['n', 'u', 'l', 'l'] ++ rest)) = .ok (.null, rest) := by
  rw [List.cons_append, Value.read, blank.skipBlank_mark rfl]
  rfl

theorem Value.read_bool (depth : Nat) (blank : Blank before) (value : Bool) (rest : List Char) :
    Value.read depth (before ++ (writeBool value ++ rest)) = .ok (.bool value, rest) := by
  cases value with
  | true =>
    change Value.read depth (before ++ 't' :: 'r' :: 'u' :: 'e' :: rest) = _
    rw [Value.read, blank.skipBlank_mark rfl]
    rfl
  | false =>
    change Value.read depth (before ++ 'f' :: 'a' :: 'l' :: 's' :: 'e' :: rest) = _
    rw [Value.read, blank.skipBlank_mark rfl]
    rfl

theorem Letters.read {letters : List Char} {s : String} (spelled : Letters letters s.toList)
    (depth : Nat) (blank : Blank before) (rest : List Char) :
    Value.read depth (before ++ ('"' :: (letters ++ ['"']) ++ rest)) = .ok (.text s, rest) := by
  rw [List.cons_append, List.append_assoc, List.singleton_append, Value.read,
    blank.skipBlank_mark rfl]
  simp only [Char.reduceEq, ↓reduceIte, spelled.string, bind, Except.bind]
  rfl

theorem Denotes.read {cs : List Char} {value : Number} (denotes : Denotes cs value) (depth : Nat)
    (blank : Blank before) (ends : EndsValue rest) :
    Value.read depth (before ++ (cs ++ rest)) = .ok (.number value, rest) := by
  have read := denotes.number ends
  obtain ⟨c, more, rfl, starts⟩ := denotes.head
  rw [List.cons_append] at read ⊢
  rw [Value.read, blank.skipBlank_mark (isBlank_of_startsNumber starts)]
  simp only [ne_of_startsNumber starts (d := 'n') rfl, ne_of_startsNumber starts (d := 't') rfl,
    ne_of_startsNumber starts (d := 'f') rfl, starts, ↓reduceIte, read, bind, Except.bind]

end Trees

end RunMetrics.Json

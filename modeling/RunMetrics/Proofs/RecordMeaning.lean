import Mathlib.Data.List.Forall2
import RunMetrics.Proofs.MemberKinds

/-!
What documents mean. For each codec there is a relation between what is read and the value that says so, and
a value is read as something just if it means that. The relation for a record says of each field which member
of an object, or which element of an array, its value comes from, so it leaves no choice of the record.
-/

set_option autoImplicit false

namespace RunMetrics.Json

namespace Codec

/-- What the codec makes of a document depends on its tree, and is what the tree means. -/
structure Means {α : Type} (codec : Codec α) (tree : TreeReader α) (means : α → Value → Prop) :
    Prop where
  reads : codec.ReadsTrees tree
  tells : ∀ {v : Value} {x : α}, tree v = .ok x ↔ means x v

/-- Of a document that is not nested too deeply what is read is what it means. -/
theorem Means.decode_iff {α : Type} {codec : Codec α} {tree : TreeReader α}
    {means : α → Value → Prop} (law : codec.Means tree means) {text : String} {v : Value}
    (document : Document text v) (shallow : Within nestingLimit v) (x : α) :
    codec.decode text = .ok x ↔ means x v := by
  rw [law.reads.decode document shallow, law.tells]

/-! ### Scalars -/

def SaysText (s : String) (v : Value) : Prop := v = .text s

def SaysFlag (b : Bool) (v : Value) : Prop := v = .bool b

def SaysInt64 (n : Int64) (v : Value) : Prop := v = .number (.integer n.toInt)

theorem text_means : text.Means asText SaysText := by
  refine ⟨text_readsTrees, fun {v s} => ?_⟩
  cases v <;> simp [asText, SaysText, unfit]

theorem bool_means : bool.Means asBool SaysFlag := by
  refine ⟨bool_readsTrees, fun {v b} => ?_⟩
  cases v <;> simp [asBool, SaysFlag, unfit]

theorem ofInt_eq_iff {m : Int} (low : -0x8000000000000000 ≤ m) (high : m < 0x8000000000000000)
    (n : Int64) : Int64.ofInt m = n ↔ m = n.toInt := by
  rw [← Int64.toInt_inj, Int64.toInt_ofInt_of_le (by omega) (by omega)]

theorem int64_means : int64.Means asInt64 SaysInt64 := by
  refine ⟨int64_readsTrees, fun {v n} => ?_⟩
  have low : -0x8000000000000000 ≤ n.toInt := n.minValue_le_toInt
  have high : n.toInt < 0x8000000000000000 := n.toInt_lt
  cases v with
  | number x =>
    cases x with
    | integer m =>
      by_cases inside : -0x8000000000000000 ≤ m ∧ m < 0x8000000000000000
      · simp [asInt64, asInteger, SaysInt64, inside, Except.map, ofInt_eq_iff inside.1 inside.2]
      · have apart : m ≠ n.toInt := by
          rintro rfl
          exact inside ⟨low, high⟩
        simp [asInt64, asInteger, SaysInt64, inside, Except.map, unfit, apart]
    | real x => simp [asInt64, asInteger, SaysInt64, Except.map, unfit]
  | _ => simp [asInt64, asInteger, SaysInt64, Except.map, unfit]

/-- A value says a name if it is the name, or an object with the name as its only key and null behind it. -/
def SaysName {α : Type} (names : List (String × α)) (x : α) (v : Value) : Prop :=
  ∃ name, names.lookup name = some x ∧ (v = .text name ∨ v = .object [(name, .null)])

theorem named_eq_ok_iff {α : Type} {names : List (String × α)} {name : String} {x : α} :
    named names name = .ok x ↔ names.lookup name = some x := by
  rw [named]
  cases names.lookup name <;> simp [unfit]

theorem asNamed_tells {α : Type} {names : List (String × α)} {v : Value} {x : α} :
    asNamed names v = .ok x ↔ SaysName names x v := by
  match v with
  | .text s => simp [asNamed, SaysName, named_eq_ok_iff]
  | .object [] => simp [asNamed, SaysName, malformed]
  | .object ((name, v) :: more) =>
    constructor
    · intro read
      obtain ⟨y, found, read⟩ := bind_eq_ok_iff.1 read
      obtain ⟨⟨⟩, null, read⟩ := bind_eq_ok_iff.1 read
      cases more with
      | nil =>
        cases read
        exact ⟨name, named_eq_ok_iff.1 found, .inr (by rw [asNull_eq_ok_iff.1 null])⟩
      | cons other more => cases read
    · rintro ⟨other, listed, same | same⟩
      · cases same
      · cases same
        exact bind_eq_ok_iff.2 ⟨x, named_eq_ok_iff.2 listed, rfl⟩
  | .null | .bool _ | .number _ | .list _ => simp [asNamed, SaysName, malformed]

/-! ### Lists -/

/-- A value says a list if it is one whose items say the elements in order. -/
def SaysList {α : Type} (means : α → Value → Prop) (xs : List α) (v : Value) : Prop :=
  ∃ items, v = .list items ∧ List.Forall₂ means xs items

theorem mapM_eq_ok_iff {α : Type} {tree : TreeReader α} {means : α → Value → Prop}
    (tells : ∀ {v : Value} {x : α}, tree v = .ok x ↔ means x v) {items : List Value}
    {xs : List α} : items.mapM tree = .ok xs ↔ List.Forall₂ means xs items := by
  induction items generalizing xs with
  | nil =>
    rw [List.mapM_nil, List.forall₂_nil_right_iff]
    exact ⟨fun same => (Except.ok.inj same).symm, fun same => congrArg Except.ok same.symm⟩
  | cons v items ih =>
    rw [List.mapM_cons, List.forall₂_cons_right_iff]
    constructor
    · intro read
      obtain ⟨x, first, read⟩ := bind_eq_ok_iff.1 read
      obtain ⟨more, others, same⟩ := bind_eq_ok_iff.1 read
      cases same
      exact ⟨x, more, tells.1 first, ih.1 others, rfl⟩
    · rintro ⟨x, more, first, others, rfl⟩
      exact bind_eq_ok_iff.2 ⟨x, tells.2 first, bind_eq_ok_iff.2 ⟨more, ih.2 others, rfl⟩⟩

theorem Means.list {α : Type} {item : Codec α} {tree : TreeReader α} {means : α → Value → Prop}
    (law : item.Means tree means) : (list item).Means (asList tree) (SaysList means) := by
  refine ⟨list_readsTrees law.reads, fun {v xs} => ?_⟩
  cases v with
  | list items => simp [asList, SaysList, mapM_eq_ok_iff law.tells]
  | _ => simp [asList, SaysList, unfit]

end Codec

/-! ### Records -/

/-- For each field its name, what a value means there, and what stands for its absence. -/
inductive Meanings : List Type → Type 1 where
  | nil : Meanings []
  | cons {α : Type} {types : List Type} (name : String) (means : α → Value → Prop)
      (absent : Option α) (rest : Meanings types) : Meanings (α :: types)

namespace Meanings

/-- Each field is said by the one member of its name, or it is left out and takes what stands for that. -/
def Said : {types : List Type} → Meanings types → Tuple types → List (String × Value) → Prop
  | [], .nil, _, _ => True
  | _ :: _, .cons name means absent rest, (x, xs), members =>
    ((∃ v, held name members = [v] ∧ means x v) ∨ (held name members = [] ∧ absent = some x)) ∧
      rest.Said xs members

/-- Each field is said by the element in its place, or the array has ended and it takes what stands for its
absence. -/
def Listed : {types : List Type} → Meanings types → Tuple types → List Value → Prop
  | [], .nil, _, items => items = []
  | _ :: _, .cons _ _ absent rest, (x, xs), [] => absent = some x ∧ rest.Listed xs []
  | _ :: _, .cons _ means _ rest, (x, xs), v :: items => means x v ∧ rest.Listed xs items

/-- A record is said by an object or by an array of its fields. -/
def Means {types : List Type} (meanings : Meanings types) (xs : Tuple types) (v : Value) : Prop :=
  (∃ members, v = .object members ∧ meanings.Said xs members) ∨
    ∃ items, v = .list items ∧ meanings.Listed xs items

theorem means_object {types : List Type} (meanings : Meanings types) (xs : Tuple types)
    (members : List (String × Value)) :
    meanings.Means xs (.object members) ↔ meanings.Said xs members := by
  simp [Means]

end Meanings

namespace Fields

/-- Each field has the name and the value for its absence that are laid down, and its codec reads of a value
what it means there. -/
inductive Mean : {types : List Type} → Fields types → Readings types → Meanings types → Prop where
  | nil : Mean .nil .nil .nil
  | cons {α : Type} {types : List Type} {name : String} {codec : Codec α} {absent : Option α}
      {rest : Fields types} {tree : TreeReader α} {trees : Readings types}
      {means : α → Value → Prop} {meanings : Meanings types} (first : codec.Means tree means)
      (others : Mean rest trees meanings) :
      Mean (.cons name codec absent rest) (.cons tree trees) (.cons name means absent meanings)

variable {types : List Type} {fields : Fields types} {trees : Readings types}
  {meanings : Meanings types}

theorem Mean.reads (law : fields.Mean trees meanings) : fields.ReadTrees trees := by
  induction law with
  | nil => exact .nil
  | cons first others ih => exact .cons first.reads ih

theorem Mean.ofMembers_iff (law : fields.Mean trees meanings) (distinct : fields.names.Nodup)
    {members : List (String × Value)} {xs : Tuple types} :
    fields.ofMembers trees members = .ok xs ↔ meanings.Said xs members := by
  induction law with
  | nil => exact iff_of_true (ofMembers_nil members) trivial
  | cons first others ih =>
    obtain ⟨x, xs⟩ := xs
    obtain ⟨fresh, distinct⟩ := List.nodup_cons.1 distinct
    rw [ofMembers_cons_eq_ok fresh, settle_eq_ok, ih distinct]
    simp only [first.tells, Meanings.Said]

theorem Mean.absentees_iff (law : fields.Mean trees meanings) {expected : String} {count : Nat}
    {xs : Tuple types} :
    fields.absentees expected count = .ok xs ↔ meanings.Listed xs [] := by
  induction law generalizing count with
  | nil => exact iff_of_true rfl rfl
  | @cons α types name codec absent rest tree trees means meanings first others ih =>
    obtain ⟨x, xs⟩ := xs
    cases absent with
    | none => simp [absentees, Meanings.Listed, unfit]
    | some y =>
      simp only [Meanings.Listed, ← @ih (count + 1), Option.some.injEq]
      constructor
      · intro made
        obtain ⟨ys, more, same⟩ := bind_eq_ok_iff.1 made
        cases same
        exact ⟨rfl, more⟩
      · rintro ⟨rfl, more⟩
        exact bind_eq_ok_iff.2 ⟨xs, more, rfl⟩

theorem Mean.ofItems_iff (law : fields.Mean trees meanings) {expected : String} {count : Nat}
    {items : List Value} {xs : Tuple types} :
    fields.ofItems expected count trees items = .ok xs ↔ meanings.Listed xs items := by
  induction law generalizing count items with
  | nil =>
    cases items with
    | nil => exact iff_of_true rfl rfl
    | cons v items => simp [ofItems, malformed, Meanings.Listed]
  | @cons α types name codec absent rest tree trees means meanings first others ih =>
    cases items with
    | nil => exact (Mean.cons first others).absentees_iff
    | cons v items =>
      obtain ⟨x, xs⟩ := xs
      simp only [Meanings.Listed, ← first.tells, ← @ih (count + 1) items]
      constructor
      · intro read
        obtain ⟨y, found, read⟩ := bind_eq_ok_iff.1 read
        obtain ⟨ys, more, same⟩ := bind_eq_ok_iff.1 read
        cases same
        exact ⟨found, more⟩
      · rintro ⟨found, more⟩
        exact bind_eq_ok_iff.2 ⟨x, found, bind_eq_ok_iff.2 ⟨xs, more, rfl⟩⟩

/-- A record means what its fields mean, if it can be put together from them and taken apart again. -/
theorem Mean.record {ρ : Type} {name : RecordName} {assemble : Tuple types → ρ}
    {parts : ρ → Tuple types} (law : fields.Mean trees meanings) (distinct : fields.names.Nodup)
    (whole : ∀ r, assemble (parts r) = r) (split : ∀ xs, parts (assemble xs) = xs) :
    (Codec.record name fields assemble parts).Means (Codec.asRecord name fields trees assemble)
      fun r => meanings.Means (parts r) := by
  refine ⟨Codec.record_readsTrees law.reads assemble parts, fun {v r} => ?_⟩
  have made : (∃ xs, Codec.asFields name fields trees v = .ok xs ∧ assemble xs = r) ↔
      Codec.asFields name fields trees v = .ok (parts r) := by
    constructor
    · rintro ⟨xs, read, rfl⟩
      rwa [split]
    · exact fun read => ⟨parts r, read, whole r⟩
  rw [Codec.asRecord, map_eq_ok_iff, made]
  cases v with
  | object members => simp [Codec.asFields, law.ofMembers_iff distinct, Meanings.Means]
  | list items => simp [Codec.asFields, law.ofItems_iff, Meanings.Means]
  | _ => simp [Codec.asFields, Meanings.Means, unfit]

end Fields

end RunMetrics.Json

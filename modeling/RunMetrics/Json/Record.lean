import RunMetrics.Json.Codec

/-!
Records: named fields of fixed types. A record is written as an object with its fields in order. It
is read from an object, whose members may come in any order and among others that are passed over,
or from an array of the fields in order. A field that is not there takes the value laid down for its
absence, or is a fault if none is.
-/

set_option autoImplicit false

namespace RunMetrics.Json

/-- One value of each type. -/
def Tuple : List Type → Type
  | [] => Unit
  | α :: types => α × Tuple types

/-- The fields found so far. -/
def Slots : List Type → Type
  | [] => Unit
  | α :: types => Option α × Slots types

def Slots.empty : (types : List Type) → Slots types
  | [] => ()
  | _ :: types => (none, Slots.empty types)

/-- The fields of a record, in order, each with its name, its codec and the value that stands for
its absence. -/
inductive Fields : List Type → Type 1 where
  | nil : Fields []
  | cons {α : Type} {types : List Type} (name : String) (codec : Codec α) (absent : Option α)
      (rest : Fields types) : Fields (α :: types)

namespace Fields

/-- The names and written values of the fields. -/
def write : {types : List Type} → Fields types → Tuple types → List (String × List Char)
  | [], .nil, _ => []
  | _ :: _, .cons name codec _ rest, (value, values) =>
    (name, codec.write value) :: rest.write values

/-- Takes the value behind a key: into the slot of the field of that name, or over it if no field
has the name. A field may be named once. -/
def offer (depth : Nat) (key : String) :
    {types : List Type} → Fields types → Slots types → Reader (Slots types)
  | [], .nil, _ => fun cs => do
    let cs ← colon cs
    let cs ← skipValue cs
    .ok ((), cs)
  | _ :: _, .cons name codec _ rest, (slot, slots) => fun cs =>
    if key = name then
      match slot with
      | some _ => unfit (.repeatedField name)
      | none => do
        let cs ← colon cs
        let (value, cs) ← codec.read depth cs
        .ok ((some value, slots), cs)
    else do
      let (slots, cs) ← rest.offer depth key slots cs
      .ok ((slot, slots), cs)

/-- A member of an object, behind the opening quote of its key. -/
def member (depth : Nat) {types : List Type} (fields : Fields types) (slots : Slots types) :
    Reader (Slots types) := fun cs => do
  let (key, cs) ← string cs
  fields.offer depth key slots cs

/-- The value of a field that was not found. -/
def fallback {α : Type} (name : String) : Option α → Option α → Except Fault α
  | some value, _ => .ok value
  | none, some value => .ok value
  | none, none => unfit (.missingField name)

/-- All fields of an object, once it has ended. -/
def close : {types : List Type} → Fields types → Slots types → Except Fault (Tuple types)
  | [], .nil, _ => .ok ()
  | _ :: _, .cons name _ absent rest, (slot, slots) => do
    let value ← fallback name slot absent
    let values ← rest.close slots
    .ok (value, values)

/-- The values for the absence of all fields, behind an array that ended after `count` elements. -/
def absentees (expected : String) (count : Nat) :
    {types : List Type} → Fields types → Except Fault (Tuple types)
  | [], .nil => .ok ()
  | _ :: _, .cons _ _ absent rest =>
    match absent with
    | none => unfit (.wrongLength count expected)
    | some value => do
      let values ← rest.absentees expected (count + 1)
      .ok (value, values)

/-- The fields as elements of an array, `count` of which have been read, and the array's end. -/
def elements (expected : String) (depth : Nat) :
    {types : List Type} → Nat → Fields types → Reader (Tuple types)
  | [], _, .nil => fun cs => do
    let cs ← closeList cs
    .ok ((), cs)
  | _ :: _, count, .cons name codec absent rest => fun cs => do
    match ← nextElement .take (decide (count = 0)) cs with
    | .close cs =>
      let values ← absentees expected count (.cons name codec absent rest)
      .ok (values, cs)
    | .item cs =>
      let (value, cs) ← codec.read depth cs
      let (values, cs) ← rest.elements expected depth (count + 1) cs
      .ok ((value, values), cs)

end Fields

/-- How a message speaks of a record. -/
structure RecordName where
  described : String
  withLength : String

/-- A record with a name that messages use and the given number of fields. -/
def RecordName.titled (name : String) (count : Nat) : RecordName :=
  ⟨"struct " ++ name, "struct " ++ name ++ " with " ++ toString count ++ " elements"⟩

namespace Codec

/-- The fields of a record, from an object or an array. -/
def readFields {types : List Type} (name : RecordName) (fields : Fields types) (depth : Nat) :
    Reader (Tuple types) := fun cs =>
  match skipBlank cs with
  | [] => malformed .endInValue
  | c :: rest =>
    if c = '[' then
      match depth with
      | 0 => malformed .nestingTooDeep
      | depth + 1 => fields.elements name.withLength depth 0 rest
    else if c = '\x7b' then
      match depth with
      | 0 => malformed .nestingTooDeep
      | depth + 1 => do
        let (slots, rest) ← Json.object .take (fields.member depth) (Slots.empty types) rest
        let values ← fields.close slots
        .ok (values, rest)
    else .error (misplaced name.described (c :: rest))

/-- The codec of a record, given how its fields make it up. -/
def record {types : List Type} {ρ : Type} (name : RecordName) (fields : Fields types)
    (assemble : Tuple types → ρ) (parts : ρ → Tuple types) : Codec ρ where
  write value := writeObject (fields.write (parts value))
  read depth := fun cs => do
    let (values, cs) ← readFields name fields depth cs
    .ok (assemble values, cs)

end Codec

end RunMetrics.Json

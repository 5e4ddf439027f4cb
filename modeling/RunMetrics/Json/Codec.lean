import RunMetrics.Json.Value

/-!
Codecs: how a type of values is written as JSON, and how a value of that type is taken off the front
of a text. A codec reads strictly: a value of another kind is named in the fault. What is wrong with
the text up to the place where the kind is settled comes first, so a broken number where a string
belongs is a malformed text, while a bracket is refused at once.
-/

set_option autoImplicit false

namespace RunMetrics.Json

/-- A written form with its reader. The reader is told how many more brackets may be nested. -/
structure Codec (α : Type) where
  write : α → List Char
  read : Nat → Reader α

namespace Codec

def encode {α : Type} (codec : Codec α) (value : α) : String := String.ofList (codec.write value)

/-- Reads a whole text. -/
def decode {α : Type} (codec : Codec α) (text : String) : Except Fault α :=
  readAll (codec.read nestingLimit) text

/-- A number found where `expected` belongs. -/
def misplacedNumber (expected : String) : Number → Fault
  | .integer value => .unfit (.wrongKind (.integer value) expected)
  | .real value => .unfit (.wrongKind (.real value) expected)

/-- The fault of a text at which `expected` does not start. -/
def misplaced (expected : String) (cs : List Char) : Fault :=
  let wrong (found : Found) : Fault := .unfit (.wrongKind found expected)
  let whenRead {α : Type} (outcome : Except Fault α) (found : α → Fault) : Fault :=
    match outcome with
    | .ok value => found value
    | .error fault => fault
  match cs with
  | [] => .malformed .endInValue
  | c :: rest =>
    if c = 'n' then whenRead (word ['u', 'l', 'l'] rest) fun _ => wrong .null
    else if c = 't' then whenRead (word ['r', 'u', 'e'] rest) fun _ => wrong (.bool true)
    else if c = 'f' then whenRead (word ['a', 'l', 's', 'e'] rest) fun _ => wrong (.bool false)
    else if startsNumber c then
      whenRead (Json.number (c :: rest)) fun n => misplacedNumber expected n.1
    else if c = '"' then whenRead (Json.string rest) fun s => wrong (.text s.1)
    else if c = '[' then wrong .list
    else if c = '\x7b' then wrong .object
    else .malformed .valueExpected

/-! ### Scalars -/

def readText : Reader String := fun cs =>
  match skipBlank cs with
  | [] => malformed .endInValue
  | c :: rest => if c = '"' then Json.string rest else .error (misplaced "a string" (c :: rest))

def text : Codec String := ⟨writeString, fun _ => readText⟩

def readBool : Reader Bool := fun cs =>
  match skipBlank cs with
  | [] => malformed .endInValue
  | c :: rest =>
    if c = 't' then do
      let rest ← word ['r', 'u', 'e'] rest
      .ok (true, rest)
    else if c = 'f' then do
      let rest ← word ['a', 'l', 's', 'e'] rest
      .ok (false, rest)
    else .error (misplaced "a boolean" (c :: rest))

def bool : Codec Bool := ⟨writeBool, fun _ => readBool⟩

/-- An integer from `low` up to, not including, `high`. -/
def readInteger (low high : Int) (expected : String) : Reader Int := fun cs =>
  match skipBlank cs with
  | [] => malformed .endInValue
  | c :: rest =>
    if startsNumber c then do
      let (n, rest) ← Json.number (c :: rest)
      match n with
      | .integer value =>
        if low ≤ value ∧ value < high then .ok (value, rest)
        else unfit (.integerOutside value expected)
      | .real value => unfit (.wrongKind (.real value) expected)
    else .error (misplaced expected (c :: rest))

/-- A signed integer of 64 bits. -/
def int64 : Codec Int64 where
  write value := writeInteger value.toInt
  read _ := fun cs => do
    let (value, rest) ← readInteger (-0x8000000000000000) 0x8000000000000000 "i64" cs
    .ok (Int64.ofInt value, rest)

/-- A count of 64 bits. -/
def uint64 : Codec UInt64 where
  write value := writeInteger value.toNat
  read _ := fun cs => do
    let (value, rest) ← readInteger 0 0x10000000000000000 "usize" cs
    .ok (UInt64.ofNat value.toNat, rest)

/-- Nothing but `null`. -/
def readNull : Reader Unit := fun cs =>
  match skipBlank cs with
  | [] => malformed .endInValue
  | c :: rest =>
    if c = 'n' then do
      let rest ← word ['u', 'l', 'l'] rest
      .ok ((), rest)
    else .error (misplaced "unit" (c :: rest))

/-! ### Names of a fixed list -/

/-- The value of which `text` is the name. -/
def named {α : Type} (names : List (String × α)) (text : String) : Except Fault α :=
  match names.lookup text with
  | some value => .ok value
  | none => unfit (.unknownVariant text (names.map Prod.fst))

/-- One of the named values: its name as a string, or an object with the name as its only key and
`null` behind it. The key is read as that of any object: without quotes it is a fault of the text. -/
def readNamed {α : Type} (names : List (String × α)) (depth : Nat) : Reader α := fun cs =>
  match skipBlank cs with
  | [] => malformed .endInValue
  | c :: rest =>
    if c = '"' then do
      let (name, rest) ← Json.string rest
      let value ← named names name
      .ok (value, rest)
    else if c = '\x7b' then
      if depth = 0 then malformed .nestingTooDeep
      else do
        match ← nextMember .take true rest with
        | .close _ => malformed .valueExpected
        | .item rest =>
          let (name, rest) ← Json.string rest
          let value ← named names name
          let rest ← colon rest
          let ((), rest) ← readNull rest
          match skipBlank rest with
          | [] => malformed .endInObject
          | c :: rest => if c = '\x7d' then .ok (value, rest) else malformed .valueExpected
    else malformed .valueExpected

/-! ### Lists -/

def list {α : Type} (item : Codec α) : Codec (List α) where
  write values := writeList (values.map item.write)
  read depth := fun cs =>
    match skipBlank cs with
    | [] => malformed .endInValue
    | c :: rest =>
      if c = '[' then
        match depth with
        | 0 => malformed .nestingTooDeep
        | depth + 1 => Json.list .take (item.read depth) rest
      else .error (misplaced "a sequence" (c :: rest))

end Codec

end RunMetrics.Json

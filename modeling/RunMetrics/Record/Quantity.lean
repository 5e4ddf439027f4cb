import RunMetrics.Failure
import RunMetrics.Json.Record

/-!
Metric values as records hold them. JSON has no numbers for NaN and the infinities, so these are
spelled out in strings; what else a string says is kept until a number is asked for.
-/

set_option autoImplicit false

namespace RunMetrics.Record

/-- A value in a record. A number may be any double until it is written. -/
inductive Quantity where
  | number (value : Binary64)
  | text (value : String)
  | null
deriving DecidableEq

namespace Quantity

/-- The spelling of a value that is not finite. -/
def spelling? (x : Binary64) : Option String :=
  if x.isNaN then some "NaN"
  else if x = Binary64.infinity then some "Infinity"
  else if x = Binary64.negativeInfinity then some "-Infinity"
  else none

def ofBinary64 (x : Binary64) : Quantity :=
  match spelling? x with
  | some spelled => .text spelled
  | none => .number x

/-- The strings that stand for values, two or three for each. -/
def spellings : List (String × Binary64) :=
  [("NaN", .nan), ("nan", .nan), ("Infinity", .infinity), ("inf", .infinity),
   ("+Infinity", .infinity), ("-Infinity", .negativeInfinity), ("-inf", .negativeInfinity)]

def toBinary64 : Quantity → Except Failure Binary64
  | .number x => .ok x
  | .text s =>
    match spellings.lookup s with
    | some x => .ok x
    | none => .error (.refused (.notNumeric s))
  | .null => .error (.refused .nullNumber)

/-- A finite number is written as such, and one that is not finite by its spelling. -/
def write : Quantity → List Char
  | .number x =>
    match spelling? x with
    | some spelled => Json.writeString spelled
    | none => x.text
  | .text s => Json.writeString s
  | .null => ['n', 'u', 'l', 'l']

/-- A number, a string or null. -/
def ofValue : Json.Value → Except Json.Fault Quantity
  | .number n => .ok (.number n.toBinary64)
  | .text s => .ok (.text s)
  | .null => .ok .null
  | _ => Json.unfit (.noVariant "WireValue")

/-- The value is read whole before its kind is looked at. -/
def codec : Json.Codec Quantity where
  write := write
  read depth := fun cs => do
    let (value, cs) ← Json.Value.read depth cs
    let quantity ← ofValue value
    .ok (quantity, cs)

end Quantity

end RunMetrics.Record

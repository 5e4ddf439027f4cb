import RunMetrics.Json.Sequence

/-!
JSON values as trees, read whole and written compactly, and passed over unread. Reading limits how
deep brackets may be nested; passing over does not.
-/

set_option autoImplicit false

namespace RunMetrics.Json

/-- A JSON value; members keep their order and may repeat a key. -/
inductive Value where
  | null
  | bool (value : Bool)
  | number (value : Number)
  | text (value : String)
  | list (items : List Value)
  | object (members : List (String × Value))

/-- How many brackets may be open at once. -/
def nestingLimit : Nat := 127

/-- A member of a tree: its key, and its value by the given reader. -/
def treeMember (value : Reader Value) (earlier : List (String × Value)) :
    Reader (List (String × Value)) := fun cs => do
  let (key, cs) ← string cs
  let cs ← colon cs
  let (value, cs) ← value cs
  .ok ((key, value) :: earlier, cs)

/-- Reads a value of which at most `depth` brackets are nested. -/
def Value.read : Nat → Reader Value
  | depth, cs =>
    match skipBlank cs with
    | [] => malformed .endInValue
    | c :: rest =>
      if c = 'n' then do
        let rest ← word ['u', 'l', 'l'] rest
        .ok (.null, rest)
      else if c = 't' then do
        let rest ← word ['r', 'u', 'e'] rest
        .ok (.bool true, rest)
      else if c = 'f' then do
        let rest ← word ['a', 'l', 's', 'e'] rest
        .ok (.bool false, rest)
      else if startsNumber c then do
        let (n, rest) ← Json.number (c :: rest)
        .ok (.number n, rest)
      else if c = '"' then do
        let (s, rest) ← string rest
        .ok (.text s, rest)
      else if c = '[' then
        match depth with
        | 0 => malformed .nestingTooDeep
        | depth + 1 => do
          let (items, rest) ← Json.list .take (Value.read depth) rest
          .ok (.list items, rest)
      else if c = '\x7b' then
        match depth with
        | 0 => malformed .nestingTooDeep
        | depth + 1 => do
          let (members, rest) ← Json.object .take (treeMember (Value.read depth)) [] rest
          .ok (.object members.reverse, rest)
      else malformed .valueExpected

/-- A member that is passed over. -/
def skippedMember (value : List Char → Except Fault (List Char)) (_ : Unit) : Reader Unit :=
  fun cs => do
    let cs ← skipString cs
    let cs ← colon cs
    let cs ← value cs
    .ok ((), cs)

def skipNumber (cs : List Char) : Except Fault (List Char) := do
  let (_, cs) ← numeral .skip cs
  .ok cs

/-- Passes over a value. The count bounds the characters left: when it is used up, so is the text. -/
def skipWithin : Nat → List Char → Except Fault (List Char)
  | 0, _ => malformed .endInValue
  | left + 1, cs =>
    match skipBlank cs with
    | [] => malformed .endInValue
    | c :: rest =>
      if c = 'n' then word ['u', 'l', 'l'] rest
      else if c = 't' then word ['r', 'u', 'e'] rest
      else if c = 'f' then word ['a', 'l', 's', 'e'] rest
      else if startsNumber c then skipNumber (c :: rest)
      else if c = '"' then skipString rest
      else if c = '[' then do
        let (_, rest) ← Json.list .skip
          (fun cs => do let cs ← skipWithin left cs; .ok ((), cs)) rest
        .ok rest
      else if c = '\x7b' then do
        let (_, rest) ← Json.object .skip (skippedMember (skipWithin left)) () rest
        .ok rest
      else malformed .valueExpected

def skipValue (cs : List Char) : Except Fault (List Char) := skipWithin cs.length cs

/-- Runs a reader on a whole text, behind which only blanks may follow. -/
def readAll {α : Type} (reader : Reader α) (text : String) : Except Fault α := do
  let (value, rest) ← reader text.toList
  if (skipBlank rest).isEmpty then .ok value else malformed .textAfterValue

def Value.parse (text : String) : Except Fault Value := readAll (Value.read nestingLimit) text

/-! ### Writing -/

def writeNumber : Number → List Char
  | .integer value => writeInteger value
  | .real value => value.text

/-- Items separated by commas. -/
def commaSeparated : List (List Char) → List Char
  | [] => []
  | [item] => item
  | item :: rest => item ++ ',' :: commaSeparated rest

/-- An array of written items. -/
def writeList (items : List (List Char)) : List Char := '[' :: (commaSeparated items ++ [']'])

/-- An object of keys with written values. -/
def writeObject (members : List (String × List Char)) : List Char :=
  '\x7b' :: (commaSeparated (members.map fun m => writeString m.1 ++ ':' :: m.2) ++ ['\x7d'])

mutual

def Value.write : Value → List Char
  | .null => ['n', 'u', 'l', 'l']
  | .bool value => writeBool value
  | .number value => writeNumber value
  | .text value => writeString value
  | .list items => writeList (Value.writeItems items)
  | .object members => writeObject (Value.writeMembers members)

def Value.writeItems : List Value → List (List Char)
  | [] => []
  | item :: rest => item.write :: Value.writeItems rest

def Value.writeMembers : List (String × Value) → List (String × List Char)
  | [] => []
  | (key, value) :: rest => (key, value.write) :: Value.writeMembers rest

end

end RunMetrics.Json

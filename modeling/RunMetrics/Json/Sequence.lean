import RunMetrics.Json.Lexeme

/-!
The commas, brackets and colons of arrays and objects, whatever their elements are. An array or
object is gone through item by item; before each item one function decides, from the next
characters, between another item, the end, and a fault.
-/

set_option autoImplicit false

namespace RunMetrics.Json

/-- What comes next inside brackets: an item that starts at the given text, or the closing bracket,
behind which the given text lies. -/
inductive Next where
  | item (rest : List Char)
  | close (rest : List Char)

/-- The fault of a comma with no element behind it. -/
def Mode.danglingInList : Mode → Malformed
  | .take => .commaDangling
  | .skip => .valueExpected

/-- What comes next in an array. -/
def nextElement (mode : Mode) (first : Bool) (cs : List Char) : Except Fault Next :=
  match skipBlank cs with
  | [] => malformed .endInList
  | c :: rest =>
    if c = ']' then .ok (.close rest)
    else if first then .ok (.item (c :: rest))
    else if c = ',' then
      match skipBlank rest with
      | [] => malformed .endInValue
      | d :: more => if d = ']' then malformed mode.danglingInList else .ok (.item (d :: more))
    else malformed .listCommaExpected

/-- The elements of an array and its closing bracket. The count bounds the characters left: when it
is used up, so is the text. -/
def elements {α : Type} (mode : Mode) (item : Reader α) : Nat → Bool → Reader (List α)
  | 0, _, _ => malformed .endInList
  | left + 1, first, cs => do
    match ← nextElement mode first cs with
    | .close rest => .ok ([], rest)
    | .item rest =>
      let (x, rest) ← item rest
      let (xs, rest) ← elements mode item left false rest
      .ok (x :: xs, rest)

/-- An array whose opening bracket has been read. -/
def list {α : Type} (mode : Mode) (item : Reader α) : Reader (List α) := fun cs =>
  elements mode item cs.length true cs

/-- The closing bracket of an array that must have no further element. -/
def closeList (cs : List Char) : Except Fault (List Char) :=
  match skipBlank cs with
  | [] => malformed .endInList
  | c :: rest =>
    if c = ']' then .ok rest
    else if c = ',' then
      match skipBlank rest with
      | ']' :: _ => malformed .commaDangling
      | _ => malformed .textAfterValue
    else malformed .textAfterValue

/-- The fault of a comma with no member behind it. -/
def Mode.danglingInObject : Mode → Malformed
  | .take => .commaDangling
  | .skip => .keyNotString

/-- The fault of a text that ends behind a comma between members. -/
def Mode.endAfterComma : Mode → Malformed
  | .take => .endInValue
  | .skip => .endInObject

/-- What comes next in an object; a member is given behind the opening quote of its key. -/
def nextMember (mode : Mode) (first : Bool) (cs : List Char) : Except Fault Next :=
  match skipBlank cs with
  | [] => malformed .endInObject
  | c :: rest =>
    if c = '\x7d' then .ok (.close rest)
    else if first then
      if c = '"' then .ok (.item rest) else malformed .keyNotString
    else if c = ',' then
      match skipBlank rest with
      | [] => malformed mode.endAfterComma
      | d :: more =>
        if d = '"' then .ok (.item more)
        else if d = '\x7d' then malformed mode.danglingInObject
        else malformed .keyNotString
    else malformed .objectCommaExpected

/-- The colon between a key and its value. -/
def colon (cs : List Char) : Except Fault (List Char) :=
  match skipBlank cs with
  | [] => malformed .endInObject
  | c :: rest => if c = ':' then .ok rest else malformed .colonExpected

/-- The members of an object and its closing bracket. The state is passed through the members in
document order; `member` is called behind the opening quote of a key. -/
def members {σ : Type} (mode : Mode) (member : σ → Reader σ) : Nat → Bool → σ → Reader σ
  | 0, _, _, _ => malformed .endInObject
  | left + 1, first, state, cs => do
    match ← nextMember mode first cs with
    | .close rest => .ok (state, rest)
    | .item rest =>
      let (state, rest) ← member state rest
      members mode member left false state rest

/-- An object whose opening bracket has been read. -/
def object {σ : Type} (mode : Mode) (member : σ → Reader σ) (start : σ) : Reader σ := fun cs =>
  members mode member cs.length true start cs

end RunMetrics.Json

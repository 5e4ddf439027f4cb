import RunMetrics.Binary64.Scaled
import RunMetrics.Json.Fault

/-!
The smallest parts of a JSON text: blanks, words, numbers and strings. Each is read in one of two
ways: taken, when its value is wanted, or skipped, when only its end is wanted. Skipping is laxer
about what a value would be (ranges of numbers, pairing of surrogates) and differs in which fault it
names where a number breaks off.
-/

set_option autoImplicit false

namespace RunMetrics.Json

/-- Whether a value is wanted or only its end. -/
inductive Mode where
  | take
  | skip
deriving DecidableEq

def isBlank (c : Char) : Bool := c == ' ' || c == '\n' || c == '\t' || c == '\r'

def skipBlank (cs : List Char) : List Char := cs.dropWhile isBlank

/-- Passes over the given letters. -/
def word : List Char → List Char → Except Fault (List Char)
  | [], cs => .ok cs
  | _ :: _, [] => malformed .endInValue
  | letter :: letters, c :: cs => if c = letter then word letters cs else malformed .wordExpected

/-! ### Numbers -/

/-- A number literal. The fraction and the exponent are absent where they are not written. -/
structure Numeral where
  negative : Bool
  whole : List Char
  fraction : Option (List Char)
  exponent : Option Int
deriving DecidableEq

/-- The fault of a number that breaks off where the text ends. -/
def Mode.brokenNumber : Mode → Malformed
  | .take => .endInValue
  | .skip => .numberInvalid

/-- The digits before the point: one zero, or digits that do not start with zero. -/
def wholePart (mode : Mode) : Reader (List Char)
  | [] => malformed mode.brokenNumber
  | c :: cs =>
    if c = '0' then
      if (cs.head?.any Char.isDigit) then malformed .numberInvalid else .ok ([c], cs)
    else if c.isDigit then .ok (c :: cs.takeWhile Char.isDigit, cs.dropWhile Char.isDigit)
    else malformed .numberInvalid

/-- A point and at least one digit, or nothing. -/
def fractionPart (mode : Mode) : Reader (Option (List Char))
  | '.' :: cs =>
    match cs with
    | [] => malformed mode.brokenNumber
    | c :: _ =>
      if c.isDigit then .ok (some (cs.takeWhile Char.isDigit), cs.dropWhile Char.isDigit)
      else malformed .numberInvalid
  | cs => .ok (none, cs)

/-- Digits of an exponent, the sign having been read. -/
def exponentDigits (mode : Mode) (sign : Int) : Reader (Option Int)
  | [] => malformed mode.brokenNumber
  | c :: cs =>
    if c.isDigit then
      .ok (some (sign * Decimal.ofDigits (c :: cs.takeWhile Char.isDigit)), cs.dropWhile Char.isDigit)
    else malformed .numberInvalid

/-- A letter e of either case with a signed exponent, or nothing. -/
def exponentPart (mode : Mode) : Reader (Option Int)
  | [] => .ok (none, [])
  | c :: cs =>
    if c = 'e' ∨ c = 'E' then
      match cs with
      | '+' :: cs => exponentDigits mode 1 cs
      | '-' :: cs => exponentDigits mode (-1) cs
      | cs => exponentDigits mode 1 cs
    else .ok (none, c :: cs)

/-- The parts of a number whose sign has been read. -/
def unsignedNumeral (mode : Mode) (negative : Bool) : Reader Numeral := fun cs => do
  let (whole, cs) ← wholePart mode cs
  let (fraction, cs) ← fractionPart mode cs
  let (exponent, cs) ← exponentPart mode cs
  .ok (⟨negative, whole, fraction, exponent⟩, cs)

def numeral (mode : Mode) : Reader Numeral
  | '-' :: cs => unsignedNumeral mode true cs
  | cs => unsignedNumeral mode false cs

/-- Whether a number can start here. -/
def startsNumber (c : Char) : Bool := c == '-' || c.isDigit

/-- The value of a number literal. A literal without fraction and exponent is an integer if 64 bits
hold it, with or without a sign; minus zero is a double, since no integer has its sign. -/
inductive Number where
  | integer (value : Int)
  | real (value : Binary64)
deriving DecidableEq

def leastInteger : Int := -0x8000000000000000

def integerBound : Int := 0x10000000000000000

/-- The decimal that a literal is taken for, with digits that 64 bits hold. Of digits that do not fit,
those before the point count in the exponent alone, and those behind it not at all. Behind the point
filling goes on, so a small digit may find room where a greater one before the point did not. -/
def Numeral.clipped (n : Numeral) : Decimal :=
  let fraction := n.fraction.getD []
  let (whole, dropped) := Decimal.fill 0 n.whole
  let (digits, left) := Decimal.fill whole fraction
  ⟨digits, n.exponent.getD 0 + dropped.length - (fraction.length - left.length : Nat)⟩

def Number.ofNumeral (n : Numeral) : Except Fault Number :=
  let digits := Decimal.ofDigits n.whole
  let value : Int := if n.negative then -(digits : Int) else digits
  if n.fraction = none ∧ n.exponent = none ∧ leastInteger ≤ value ∧ value < integerBound ∧
      ¬ (n.negative = true ∧ digits = 0) then
    .ok (.integer value)
  else
    match Binary64.scaled? n.negative n.clipped with
    | some x => .ok (.real x)
    | none => malformed .numberTooLarge

def number : Reader Number := fun cs => do
  let (n, cs) ← numeral .take cs
  let value ← Number.ofNumeral n
  .ok (value, cs)

/-- The double that a number stands for. -/
def Number.toBinary64 : Number → Binary64
  | .integer value => Binary64.ofNat (decide (value < 0)) value.natAbs
  | .real value => value

/-! ### Strings -/

def hexValue? (c : Char) : Option Nat :=
  if '0' ≤ c ∧ c ≤ '9' then some (c.toNat - 48)
  else if 'a' ≤ c ∧ c ≤ 'f' then some (c.toNat - 87)
  else if 'A' ≤ c ∧ c ≤ 'F' then some (c.toNat - 55)
  else none

/-- The number that four hex digits spell. -/
def hexQuad? (a b c d : Char) : Option Nat :=
  match hexValue? a, hexValue? b, hexValue? c, hexValue? d with
  | some a, some b, some c, some d => some (((a * 16 + b) * 16 + c) * 16 + d)
  | _, _, _, _ => none

/-- How many bytes characters take in UTF-8. -/
def utf8Length (cs : List Char) : Nat := cs.foldl (fun n c => n + c.utf8Size) 0

/-- Four hex digits. If fewer than four bytes of text are left, the text has ended too early. -/
def hexQuad : Reader Nat
  | a :: b :: c :: d :: cs =>
    match hexQuad? a b c d with
    | some n => .ok (n, cs)
    | none => malformed .escapeInvalid
  | cs =>
    if utf8Length cs < 4 then malformed .endInString else malformed .escapeInvalid

def isHighSurrogate (n : Nat) : Bool := decide (0xd800 ≤ n ∧ n ≤ 0xdbff)

def isLowSurrogate (n : Nat) : Bool := decide (0xdc00 ≤ n ∧ n ≤ 0xdfff)

/-- The character beyond the first plane that a pair of surrogates stands for. -/
def pairedChar (high low : Nat) : Char :=
  Char.ofNat (0x10000 + (high - 0xd800) * 0x400 + (low - 0xdc00))

/-- The character spelled by hex digits; a high surrogate needs a low one right behind it. -/
def unicodeEscape : Reader Char := fun cs => do
  let (n, cs) ← hexQuad cs
  if isLowSurrogate n then malformed .surrogateAlone
  else if isHighSurrogate n then
    match cs with
    | [] => malformed .endInString
    | '\\' :: [] => malformed .endInString
    | '\\' :: 'u' :: cs => do
      let (low, cs) ← hexQuad cs
      if isLowSurrogate low then .ok (pairedChar n low, cs) else malformed .surrogateAlone
    | _ => malformed .surrogateUnpaired
  else .ok (Char.ofNat n, cs)

/-- The character that a single letter behind a backslash stands for. -/
def shortEscape? (c : Char) : Option Char :=
  match c with
  | '"' => some '"'
  | '\\' => some '\\'
  | '/' => some '/'
  | 'b' => some '\x08'
  | 'f' => some '\x0c'
  | 'n' => some '\n'
  | 'r' => some '\r'
  | 't' => some '\t'
  | _ => none

/-- The character of an escape whose backslash has been read. -/
def escape : Reader Char
  | [] => malformed .endInString
  | c :: cs =>
    if c = 'u' then unicodeEscape cs
    else match shortEscape? c with
      | some value => .ok (value, cs)
      | none => malformed .escapeInvalid

/-- The end of an escape whose backslash has been read, surrogates unchecked. -/
def skipEscape : List Char → Except Fault (List Char)
  | [] => malformed .endInString
  | c :: cs =>
    if c = 'u' then do
      let (_, cs) ← hexQuad cs
      .ok cs
    else match shortEscape? c with
      | some _ => .ok cs
      | none => malformed .escapeInvalid

/-- The characters up to the closing quote. The count bounds the characters left: when it is used
up, so is the text. -/
def stringChars : Nat → Reader (List Char)
  | 0, _ => malformed .endInString
  | _ + 1, [] => malformed .endInString
  | left + 1, c :: cs =>
    if c = '"' then .ok ([], cs)
    else if c = '\\' then do
      let (value, cs) ← escape cs
      let (more, cs) ← stringChars left cs
      .ok (value :: more, cs)
    else if c.toNat < 0x20 then malformed .controlCharacter
    else do
      let (more, cs) ← stringChars left cs
      .ok (c :: more, cs)

/-- A string whose opening quote has been read. -/
def string : Reader String := fun cs => do
  let (chars, cs) ← stringChars cs.length cs
  .ok (String.ofList chars, cs)

def skipStringChars : Nat → List Char → Except Fault (List Char)
  | 0, _ => malformed .endInString
  | _ + 1, [] => malformed .endInString
  | left + 1, c :: cs =>
    if c = '"' then .ok cs
    else if c = '\\' then do
      let cs ← skipEscape cs
      skipStringChars left cs
    else if c.toNat < 0x20 then malformed .controlCharacter
    else skipStringChars left cs

/-- The end of a string whose opening quote has been read. -/
def skipString (cs : List Char) : Except Fault (List Char) := skipStringChars cs.length cs

/-! ### Writing -/

/-- A character of a string as it is written: only what must be escaped is. -/
def writtenChar (c : Char) : List Char :=
  match c with
  | '"' => ['\\', '"']
  | '\\' => ['\\', '\\']
  | '\x08' => ['\\', 'b']
  | '\t' => ['\\', 't']
  | '\n' => ['\\', 'n']
  | '\x0c' => ['\\', 'f']
  | '\r' => ['\\', 'r']
  | c =>
    if c.toNat < 0x20 then
      ['\\', 'u', '0', '0', Text.hexDigit (c.toNat / 16), Text.hexDigit (c.toNat % 16)]
    else [c]

def writeString (s : String) : List Char := '"' :: (s.toList.flatMap writtenChar ++ ['"'])

def writeInteger (n : Int) : List Char :=
  (if n < 0 then ['-'] else []) ++ Nat.toDigits 10 n.natAbs

def writeBool (b : Bool) : List Char := if b then "true".toList else "false".toList

end RunMetrics.Json

import RunMetrics.Binary64.Shortest
import RunMetrics.Text.Quoted

/-!
Why a JSON text is refused. A text is malformed if it is no JSON document that the reader takes, and
unfit if the document does not have the shape that the reader was asked for. The first fault in
document order is the one reported, whichever kind it is.
-/

set_option autoImplicit false

namespace RunMetrics.Json

/-- What is wrong with the text itself. -/
inductive Malformed where
  | endInValue
  | endInString
  | endInList
  | endInObject
  | colonExpected
  | listCommaExpected
  | objectCommaExpected
  | wordExpected
  | valueExpected
  | escapeInvalid
  | numberInvalid
  | numberTooLarge
  | surrogateAlone
  | surrogateUnpaired
  | controlCharacter
  | keyNotString
  | commaDangling
  | textAfterValue
  | nestingTooDeep
deriving DecidableEq

def Malformed.message : Malformed → String
  | .endInValue => "EOF while parsing a value"
  | .endInString => "EOF while parsing a string"
  | .endInList => "EOF while parsing a list"
  | .endInObject => "EOF while parsing an object"
  | .colonExpected => "expected `:`"
  | .listCommaExpected => "expected `,` or `]`"
  | .objectCommaExpected => "expected `,` or `\x7d`"
  | .wordExpected => "expected ident"
  | .valueExpected => "expected value"
  | .escapeInvalid => "invalid escape"
  | .numberInvalid => "invalid number"
  | .numberTooLarge => "number out of range"
  | .surrogateAlone => "lone leading surrogate in hex escape"
  | .surrogateUnpaired => "unexpected end of hex escape"
  | .controlCharacter => "control character (\\u0000-\\u001F) found while parsing a string"
  | .keyNotString => "key must be a string"
  | .commaDangling => "trailing comma"
  | .textAfterValue => "trailing characters"
  | .nestingTooDeep => "recursion limit exceeded"

/-- What stands where another kind of value was asked for. -/
inductive Found where
  | null
  | bool (value : Bool)
  | integer (value : Int)
  | real (value : Binary64)
  | text (value : String)
  | list
  | object
deriving DecidableEq

def Found.describe : Found → String
  | .null => "null"
  | .bool value => "boolean `" ++ (if value then "true" else "false") ++ "`"
  | .integer value => "integer `" ++ toString value ++ "`"
  | .real value => "floating point `" ++ String.ofList value.text ++ "`"
  | .text value => "string " ++ Text.quoted value
  | .list => "sequence"
  | .object => "map"

/-- In which way a document has not the shape asked for. -/
inductive Misfit where
  | wrongKind (found : Found) (expected : String)
  | integerOutside (found : Int) (expected : String)
  | wrongLength (length : Nat) (expected : String)
  | unknownVariant (name : String) (known : List String)
  | missingField (name : String)
  | repeatedField (name : String)
  | noVariant (name : String)
deriving DecidableEq

/-- Names between backquotes, separated by commas. -/
def nameList (names : List String) : String :=
  String.intercalate ", " (names.map fun name => "`" ++ name ++ "`")

def Misfit.message : Misfit → String
  | .wrongKind found expected => "invalid type: " ++ found.describe ++ ", expected " ++ expected
  | .integerOutside found expected =>
    "invalid value: " ++ (Found.integer found).describe ++ ", expected " ++ expected
  | .wrongLength length expected => "invalid length " ++ toString length ++ ", expected " ++ expected
  | .unknownVariant name known =>
    "unknown variant `" ++ name ++ "`, expected one of " ++ nameList known
  | .missingField name => "missing field `" ++ name ++ "`"
  | .repeatedField name => "duplicate field `" ++ name ++ "`"
  | .noVariant name => "data did not match any variant of untagged enum " ++ name

/-- The first fault of a text. -/
inductive Fault where
  | malformed (cause : Malformed)
  | unfit (cause : Misfit)
deriving DecidableEq

def Fault.message : Fault → String
  | .malformed cause => cause.message
  | .unfit cause => cause.message

/-- A reader takes a value off the front of a text and gives the rest, or the first fault. -/
abbrev Reader (α : Type) : Type := List Char → Except Fault (α × List Char)

/-- The outcome of a reader that stops at a malformed place. -/
def malformed {α : Type} (cause : Malformed) : Except Fault α := .error (.malformed cause)

def unfit {α : Type} (cause : Misfit) : Except Fault α := .error (.unfit cause)

end RunMetrics.Json

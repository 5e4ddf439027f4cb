import RunMetrics.Json.Fault

/-!
Everything that an operation can fail with, and the message that goes with it. A failure names its
cause; causes that come from outside (a journal, a file, a caller) carry their own text.
-/

set_option autoImplicit false

namespace RunMetrics

/-- Why a value is refused at the boundary. -/
inductive Refusal where
  | emptyKey
  | negativeTimestamp (key : String) (timestamp : Int64)
  | negativeStep (key : String) (step : Int64)
  | foreignKey (key : String) (expected : String)
  | notNumeric (text : String)
  | nullNumber
  | unfitRecord (cause : Json.Misfit)
  | described (text : String)
deriving DecidableEq

def Refusal.message : Refusal → String
  | .emptyKey => "metric key must not be empty"
  | .negativeTimestamp key timestamp =>
    "metric '" ++ key ++ "': timestamp must be non-negative, got " ++ toString timestamp.toInt
  | .negativeStep key step =>
    "metric '" ++ key ++ "': step must be non-negative, got " ++ toString step.toInt
  | .foreignKey key expected =>
    "sample key '" ++ key ++ "' does not match history key '" ++ expected ++ "'"
  | .notNumeric text => "metric value must be numeric, got \"" ++ text ++ "\""
  | .nullNumber => "metric value must be numeric, got null"
  | .unfitRecord cause => cause.message
  | .described text => text

/-- Why a snapshot cannot be read or written. -/
inductive SnapshotFault where
  | badColumn (name : String)
  | notOpened (text : String)
  | notParsed
  | described (text : String)
deriving DecidableEq

def SnapshotFault.message : SnapshotFault → String
  | .badColumn name => "Missing or mistyped column '" ++ name ++ "' in metric snapshot"
  | .notOpened text => "Failed to open Parquet file: " ++ text
  | .notParsed => "Failed to parse Parquet file"
  | .described text => text

inductive Failure where
  | unknownRun (run : String)
  | refused (cause : Refusal)
  | journal (text : String)
  | snapshot (cause : SnapshotFault)
  | file (text : String)
  | columns (text : String)
  | document (fault : Json.Fault)
deriving DecidableEq

def Failure.message : Failure → String
  | .unknownRun run =>
    "Run not found: " ++ run ++ "\nRegister the run before recording or querying its metrics"
  | .refused cause => "Invalid value: " ++ cause.message
  | .journal text => "Metric sink error: " ++ text ++ "\nNo in-memory state was modified"
  | .snapshot cause => "Storage error: " ++ cause.message
  | .file text => "IO error: " ++ text
  | .columns text => "Arrow error: Parser error: " ++ text
  | .document fault => "Serialization error: " ++ fault.message

/-- Whether an unknown run is the cause. -/
def Failure.isUnknownRun : Failure → Bool
  | .unknownRun _ => true
  | _ => false

/-- Whether a refused value is the cause. -/
def Failure.isRefusal : Failure → Bool
  | .refused _ => true
  | _ => false

/-- The fault of a wire record: its data are to blame if the text is a document. -/
def Failure.ofRecord : Json.Fault → Failure
  | .unfit cause => .refused (.unfitRecord cause)
  | .malformed cause => .document (.malformed cause)

/-- What a file system says of a path that leads nowhere. -/
def noSuchFile : String := "No such file or directory (os error 2)"

end RunMetrics

import RunMetrics.Failure
import RunMetrics.Json.Record

/-!
Settings of a store, and their JSON document, in which every field may be left out.
-/

set_option autoImplicit false

namespace RunMetrics

structure Settings where
  allowNegative : Bool := false
  /-- How many runs to make room for; no answer depends on it. -/
  expectedRuns : UInt64 := 16
deriving DecidableEq, Inhabited

namespace Settings

def fields : Json.Fields [Bool, UInt64] :=
  .cons "allow_negative" .bool (some false) <| .cons "expected_runs" .uint64 (some 16) .nil

def codec : Json.Codec Settings :=
  .record (.titled "StoreConfig" 2) fields
    (fun (allowNegative, expectedRuns, ()) => ⟨allowNegative, expectedRuns⟩)
    (fun s => (s.allowNegative, s.expectedRuns, ()))

/-- Reads settings; any fault is one of the document. -/
def parse (text : String) : Except Failure Settings := (codec.decode text).mapError .document

end Settings

end RunMetrics

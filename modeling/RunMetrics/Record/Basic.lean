import RunMetrics.History
import RunMetrics.Record.Quantity
import RunMetrics.Run.Overview

/-!
Wire records: what samples, histories, notes, overviews and summary tables look like in JSON, and
the way back. Reading a record checks its shape only; turning it into a sample, a history or an
overview applies the rules of the boundary.
-/

set_option autoImplicit false

namespace RunMetrics.Record

/-! ### Samples -/

structure SampleRecord where
  key : String
  value : Quantity
  timestamp : Int64
  step : Int64
deriving DecidableEq

namespace SampleRecord

def fields : Json.Fields [String, Quantity, Int64, Int64] :=
  .cons "key" .text none <| .cons "value" Quantity.codec none <|
    .cons "timestamp" .int64 none <| .cons "step" .int64 none .nil

def codec : Json.Codec SampleRecord :=
  .record (.titled "MetricRecord" 4) fields
    (fun (key, value, timestamp, step, ()) => ⟨key, value, timestamp, step⟩)
    (fun r => (r.key, r.value, r.timestamp, r.step, ()))

def ofSample (s : Sample) : SampleRecord := ⟨s.key, .ofBinary64 s.value, s.timestamp, s.step⟩

/-- The sample of a record: its value must be numeric, and the sample valid. -/
def toSample (allowNegative : Bool) (r : SampleRecord) : Except Failure Sample := do
  let value ← r.value.toBinary64
  let sample : Sample := ⟨r.key, value, r.timestamp, r.step⟩
  sample.check allowNegative
  .ok sample

end SampleRecord

/-! ### Histories -/

structure HistoryRecord where
  run : String
  key : String
  samples : List SampleRecord
deriving DecidableEq

namespace HistoryRecord

def fields : Json.Fields [String, String, List SampleRecord] :=
  .cons "run_id" .text none <| .cons "metric_key" .text none <|
    .cons "metrics" (.list SampleRecord.codec) none .nil

def codec : Json.Codec HistoryRecord :=
  .record (.titled "MetricHistoryRecord" 3) fields
    (fun (run, key, samples, ()) => ⟨run, key, samples⟩)
    (fun r => (r.run, r.key, r.samples, ()))

def ofHistory (h : History) : HistoryRecord := ⟨h.run, h.key, h.samples.map .ofSample⟩

/-- The history of a record: first every sample on its own, then that all have the key. -/
def toHistory (allowNegative : Bool) (r : HistoryRecord) : Except Failure History := do
  let samples ← r.samples.mapM (SampleRecord.toSample allowNegative)
  History.ofSamples r.run r.key samples

end HistoryRecord

/-! ### Params and tags -/

/-- A name with its text. -/
structure NoteRecord where
  key : String
  value : String
deriving DecidableEq

namespace NoteRecord

def fields : Json.Fields [String, String] :=
  .cons "key" .text none <| .cons "value" .text none .nil

def codec : Json.Codec NoteRecord :=
  .record (.titled "KeyValueRecord" 2) fields
    (fun (key, value, ()) => ⟨key, value⟩) (fun r => (r.key, r.value, ()))

def ofPair (pair : String × String) : NoteRecord := ⟨pair.1, pair.2⟩

def toPair (r : NoteRecord) : String × String := (r.key, r.value)

end NoteRecord

/-! ### Overviews -/

/-- Flat lists; later entries overwrite earlier ones of the same key. -/
structure OverviewRecord where
  latest : List SampleRecord
  lowest : List SampleRecord
  highest : List SampleRecord
  params : List NoteRecord
  tags : List NoteRecord
deriving DecidableEq

namespace OverviewRecord

/-- A list that is not there is empty. -/
def fields : Json.Fields
    [List SampleRecord, List SampleRecord, List SampleRecord, List NoteRecord, List NoteRecord] :=
  .cons "metrics" (.list SampleRecord.codec) (some []) <|
    .cons "metric_minimums" (.list SampleRecord.codec) (some []) <|
      .cons "metric_maximums" (.list SampleRecord.codec) (some []) <|
        .cons "params" (.list NoteRecord.codec) (some []) <|
          .cons "tags" (.list NoteRecord.codec) (some []) .nil

def codec : Json.Codec OverviewRecord :=
  .record (.titled "RunDataRecord" 5) fields
    (fun (latest, lowest, highest, params, tags, ()) => ⟨latest, lowest, highest, params, tags⟩)
    (fun r => (r.latest, r.lowest, r.highest, r.params, r.tags, ()))

def ofOverview (o : Overview) : OverviewRecord where
  latest := o.latest.values.map .ofSample
  lowest := o.lowest.values.map .ofSample
  highest := o.highest.values.map .ofSample
  params := o.params.entries.map .ofPair
  tags := o.tags.entries.map .ofPair

/-- Puts the samples of records into a projection. Negative times are no reason to refuse them. -/
def putRecords (p : Projection) (o : Overview) (records : List SampleRecord) :
    Except Failure Overview :=
  records.foldlM (fun o r => do
    let sample ← r.toSample true
    .ok (o.putSample p sample)) o

def toOverview (r : OverviewRecord) : Except Failure Overview := do
  let o ← putRecords .latest .empty r.latest
  let o ← putRecords .lowest o r.lowest
  let o ← putRecords .highest o r.highest
  .ok ((o.putParams (r.params.map NoteRecord.toPair)).putTags (r.tags.map NoteRecord.toPair))

end OverviewRecord

/-! ### Rows of the summary table -/

/-- What a projection shows of a metric of a run. -/
structure ProjectionRow where
  key : String
  run : String
  projection : Projection
  value : Quantity
  timestamp : Int64
  step : Int64
  isNaN : Bool
deriving DecidableEq

namespace ProjectionRow

def fields : Json.Fields [String, String, Projection, Quantity, Int64, Int64, Bool] :=
  .cons "key" .text none <| .cons "run_id" .text none <|
    .cons "summary_type" Projection.codec none <| .cons "value" Quantity.codec none <|
      .cons "timestamp" .int64 none <| .cons "step" .int64 none <| .cons "is_nan" .bool none .nil

def codec : Json.Codec ProjectionRow :=
  .record (.titled "SummaryRow" 7) fields
    (fun (key, run, projection, value, timestamp, step, isNaN, ()) =>
      ⟨key, run, projection, value, timestamp, step, isNaN⟩)
    (fun r => (r.key, r.run, r.projection, r.value, r.timestamp, r.step, r.isNaN, ()))

def ofSample (run : String) (p : Projection) (s : Sample) : ProjectionRow :=
  ⟨s.key, run, p, .ofBinary64 s.value, s.timestamp, s.step, s.value.isNaN⟩

/-- The rows of a summary, one for each projection that shows a sample. -/
def ofSummary (run : String) (summary : Summary) : List ProjectionRow :=
  Projection.all.filterMap fun p => (summary.get? p).map (ofSample run p)

end ProjectionRow

/-! ### Texts -/

def encode {α : Type} (codec : Json.Codec α) (value : α) : String := codec.encode value

/-- Reads a record. A document of the wrong shape is an invalid value; a text that is no document
is not. -/
def decode {α : Type} (codec : Json.Codec α) (text : String) : Except Failure α :=
  (codec.decode text).mapError Failure.ofRecord

end RunMetrics.Record

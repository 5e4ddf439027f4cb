import RunMetrics.Precedence
import RunMetrics.Projection

/-!
Summaries: the latest, lowest and highest sample of a history that is not empty. A summary is kept
up one sample at a time, and can be taken from all samples at once.
-/

set_option autoImplicit false

namespace RunMetrics

/-- The extremes are absent when every value is NaN. -/
structure Summary where
  latest : Sample
  lowest : Option Sample
  highest : Option Sample
deriving DecidableEq

namespace Summary

/-- The summary of a single sample. -/
def single (s : Sample) : Summary :=
  let comparable := if s.value.isNaN then none else some s
  ⟨s, comparable, comparable⟩

/-- The summary after one more sample. -/
def add (summary : Summary) (s : Sample) : Summary where
  latest := if s.replaces summary.latest then s else summary.latest
  lowest :=
    if s.value.lowers (summary.lowest.map Sample.value) then some s else summary.lowest
  highest :=
    if s.value.raises (summary.highest.map Sample.value) then some s else summary.highest

/-- The summary after one more sample, if there is one before it. -/
def extend (summary : Option Summary) (s : Sample) : Summary :=
  match summary with
  | some summary => summary.add s
  | none => single s

/-- The summary of all samples, in order of arrival; there is none of no samples. -/
def ofSamples? (samples : List Sample) : Option Summary :=
  (latest? samples).map fun latest => ⟨latest, lowest? samples, highest? samples⟩

/-- The sample that a projection shows. -/
def get? (summary : Summary) : Projection → Option Sample
  | .latest => some summary.latest
  | .lowest => summary.lowest
  | .highest => summary.highest

end Summary

end RunMetrics

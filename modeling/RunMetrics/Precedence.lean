import RunMetrics.Sample

/-!
Which of two samples counts as later, and when a value becomes the lowest or the highest so far.
Both the running summary and the one taken from a whole history decide by these rules.
-/

set_option autoImplicit false

namespace RunMetrics

namespace Sample

/-- By timestamp, then by step. -/
def timeOrder (a b : Sample) : Ordering := (compare a.timestamp b.timestamp).then (compare a.step b.step)

/-- Whether a sample that arrives after `incumbent` becomes the latest one; at the same timestamp
and step it does. -/
def replaces (candidate incumbent : Sample) : Bool := candidate.timeOrder incumbent != .lt

end Sample

namespace Binary64

/-- Whether a value becomes the lowest so far. NaN never does, and an equal value does not. -/
def lowers (candidate : Binary64) (incumbent : Option Binary64) : Bool :=
  !candidate.isNaN && incumbent.all fun lowest => candidate.less lowest

/-- Whether a value becomes the highest so far. NaN never does, and an equal value does not. -/
def raises (candidate : Binary64) (incumbent : Option Binary64) : Bool :=
  !candidate.isNaN && incumbent.all fun highest => highest.less candidate

end Binary64

/-- The latest of samples given in order of arrival. -/
def latest? (samples : List Sample) : Option Sample :=
  samples.foldl (fun best s =>
    match best with
    | some incumbent => if s.replaces incumbent then some s else some incumbent
    | none => some s) none

/-- The sample with the lowest value; of equal values the first. -/
def lowest? (samples : List Sample) : Option Sample :=
  samples.foldl (fun best s =>
    if s.value.lowers (best.map Sample.value) then some s else best) none

/-- The sample with the highest value; of equal values the first. -/
def highest? (samples : List Sample) : Option Sample :=
  samples.foldl (fun best s =>
    if s.value.raises (best.map Sample.value) then some s else best) none

end RunMetrics

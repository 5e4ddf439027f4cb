import RunMetrics.Summary
import RunMetrics.Table

/-!
Overviews: all that is shown of a run at once. For each metric the samples of its three projections,
and the params and tags of the run.
-/

set_option autoImplicit false

namespace RunMetrics

/-- A metric whose values are all NaN has a latest sample and no extremes. -/
structure Overview where
  latest : Table String Sample
  lowest : Table String Sample
  highest : Table String Sample
  params : Table String String
  tags : Table String String
deriving DecidableEq, Inhabited

namespace Overview

def empty : Overview := ⟨Table.empty, Table.empty, Table.empty, Table.empty, Table.empty⟩

/-- The samples of a projection, by metric. -/
def samples (o : Overview) : Projection → Table String Sample
  | .latest => o.latest
  | .lowest => o.lowest
  | .highest => o.highest

/-- Puts a sample under its key into a projection, over one that was there. -/
def putSample (o : Overview) (p : Projection) (s : Sample) : Overview :=
  match p with
  | .latest => { o with latest := o.latest.insert s.key s }
  | .lowest => { o with lowest := o.lowest.insert s.key s }
  | .highest => { o with highest := o.highest.insert s.key s }

/-- Puts in the samples that the projections of a summary show. -/
def putSummary (o : Overview) (summary : Summary) : Overview :=
  Projection.all.foldl (fun o p =>
    match summary.get? p with
    | some s => o.putSample p s
    | none => o) o

def putParam (o : Overview) (name text : String) : Overview :=
  { o with params := o.params.insert name text }

def putTag (o : Overview) (name text : String) : Overview :=
  { o with tags := o.tags.insert name text }

def putParams (o : Overview) (pairs : List (String × String)) : Overview :=
  pairs.foldl (fun o pair => o.putParam pair.1 pair.2) o

def putTags (o : Overview) (pairs : List (String × String)) : Overview :=
  pairs.foldl (fun o pair => o.putTag pair.1 pair.2) o

/-- What can be put into an overview at a time. -/
inductive Entry where
  | sample (p : Projection) (s : Sample)
  | summary (summary : Summary)
  | param (name text : String)
  | tag (name text : String)
  | params (pairs : List (String × String))
  | tags (pairs : List (String × String))

def put (o : Overview) : Entry → Overview
  | .sample p s => o.putSample p s
  | .summary summary => o.putSummary summary
  | .param name text => o.putParam name text
  | .tag name text => o.putTag name text
  | .params pairs => o.putParams pairs
  | .tags pairs => o.putTags pairs

/-- The overview of entries: of those that meet the last one stays. -/
def ofEntries (entries : List Entry) : Overview := entries.foldl put empty

/-- Whether nothing is shown. -/
def isEmpty (o : Overview) : Bool := o.latest.isEmpty && o.params.isEmpty && o.tags.isEmpty

/-- The values of a projection, by metric. -/
def values (o : Overview) (p : Projection) : List (String × Binary64) :=
  (o.samples p).entries.map fun entry => (entry.1, entry.2.value)

end Overview

end RunMetrics

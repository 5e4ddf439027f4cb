import RunMetrics.Json.Codec

/-!
The three projections of a history that are kept: its latest, lowest and highest sample.
-/

set_option autoImplicit false

namespace RunMetrics

inductive Projection where
  | latest
  | lowest
  | highest
deriving DecidableEq

namespace Projection

/-- All projections, in the order of their codes. -/
def all : List Projection := [.latest, .lowest, .highest]

/-- The number that stands for a projection in a table. -/
def code : Projection → Nat
  | .latest => 0
  | .lowest => 1
  | .highest => 2

def ofCode? (code : Int) : Option Projection := all.find? fun p => (p.code : Int) = code

/-- Projections are ordered as their codes. -/
def before (p q : Projection) : Bool := decide (p.code < q.code)

def title : Projection → String
  | .latest => "Latest"
  | .lowest => "Min"
  | .highest => "Max"

/-- The heading of a column for a metric. -/
def label (p : Projection) (key : String) : String := p.title ++ " " ++ key

/-- The names in records. -/
def names : List (String × Projection) := [("latest", .latest), ("min", .lowest), ("max", .highest)]

def name : Projection → String
  | .latest => "latest"
  | .lowest => "min"
  | .highest => "max"

def codec : Json.Codec Projection where
  write p := Json.writeString p.name
  read := Json.Codec.readNamed names

end Projection

end RunMetrics

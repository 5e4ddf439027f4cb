import RunMetrics.Table

/-!
Rosters: who says which runs exist. A store only asks whether a run is known and, where registration
is its own business, adds runs.
-/

set_option autoImplicit false

namespace RunMetrics

/-- States of a roster. Registering answers whether the run was new. A roster that others write to
may answer a question differently when it is put again, so being asked leads to another state. -/
class Roster (ρ : Type) where
  contains : ρ → String → Bool
  asked : ρ → String → ρ := fun r _ => r
  register : ρ → String → Bool × ρ

/-- Being asked changes no answer. -/
class Roster.Steady (ρ : Type) [Roster ρ] : Prop where
  contains_asked : ∀ (r : ρ) (run other : String),
    Roster.contains (Roster.asked r run) other = Roster.contains r other

/-- A set of runs, which anybody may add to. -/
structure RunSet where
  runs : Table String Unit
deriving DecidableEq, Inhabited

namespace RunSet

def empty : RunSet := ⟨Table.empty⟩

def contains (s : RunSet) (run : String) : Bool := s.runs.contains run

def insert (s : RunSet) (run : String) : RunSet := ⟨s.runs.insert run ()⟩

def ofList (runs : List String) : RunSet := runs.foldl insert empty

def size (s : RunSet) : Nat := s.runs.size

def isEmpty (s : RunSet) : Bool := s.runs.isEmpty

/-- Adds a run; the answer is whether it was new. -/
def register (s : RunSet) (run : String) : Bool × RunSet :=
  if s.contains run then (false, s) else (true, s.insert run)

instance : Roster RunSet where
  contains := contains
  register := register

instance : Roster.Steady RunSet := ⟨fun _ _ _ => rfl⟩

end RunSet

/-- A roster that somebody else keeps: registering changes nothing. -/
structure FrozenRoster where
  runs : RunSet

instance : Roster FrozenRoster where
  contains r run := r.runs.contains run
  register r _ := (false, r)

instance : Roster.Steady FrozenRoster := ⟨fun _ _ _ => rfl⟩

end RunMetrics

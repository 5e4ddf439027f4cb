import RunMetrics.Summary

/-!
Histories: all samples of one metric of one run, in order of arrival. A history cannot hold a sample
of another metric.
-/

set_option autoImplicit false

namespace RunMetrics

structure History where
  run : String
  key : String
  samples : List Sample
  keyed : ∀ s ∈ samples, s.key = key
deriving DecidableEq

namespace History

def empty (run key : String) : History := ⟨run, key, [], by simp⟩

def isEmpty (h : History) : Bool := h.samples.isEmpty

def size (h : History) : Nat := h.samples.length

/-- Adds a sample of the same key at the end. -/
def push (h : History) (s : Sample) (same : s.key = h.key) : History where
  run := h.run
  key := h.key
  samples := h.samples ++ [s]
  keyed t member := by
    rcases List.mem_append.1 member with earlier | last
    · exact h.keyed t earlier
    · exact List.mem_singleton.1 last ▸ same

/-- Adds a sample at the end; one of another key is refused. -/
def append (h : History) (s : Sample) : Except Failure History :=
  if same : s.key = h.key then .ok (h.push s same)
  else .error (.refused (.foreignKey s.key h.key))

/-- The history of samples in order of arrival. -/
def ofSamples (run key : String) (samples : List Sample) : Except Failure History :=
  samples.foldlM append (empty run key)

def summary? (h : History) : Option Summary := Summary.ofSamples? h.samples

end History

end RunMetrics

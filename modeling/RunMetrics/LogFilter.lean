/-!
The default filter for log output.
-/

set_option autoImplicit false

namespace RunMetrics

/-- Which messages are logged when the environment does not say. -/
def logFilter (verbose : Bool) : String :=
  if verbose then "trueno_metrics=debug" else "trueno_metrics=info"

end RunMetrics

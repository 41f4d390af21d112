/-!
# Settings of a run
-/

namespace Ensemble

structure CompactionConfig where
  enabled : Bool := true
  /-- Estimated size of the active agent's view above which the session is summarised. -/
  thresholdTokens : Nat := 100000
deriving DecidableEq

structure SuggestionsConfig where
  enabled : Bool := false
  maxCount : Nat := 3
  /-- In milliseconds. -/
  timeout : Nat := 5000
  maxTokens : UInt32 := 300
deriving DecidableEq

structure RunConfig where
  /-- Model calls allowed in one run. -/
  maxIterations : Nat := 50
  /-- Events that may wait for their reader. -/
  eventBuffer : Nat := 256
  compaction : CompactionConfig := {}
  suggestions : SuggestionsConfig := {}
deriving DecidableEq

end Ensemble

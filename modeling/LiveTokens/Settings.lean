/-!
# Settings

The two settings of a tokenizer, with the values that hold unless something else is asked for.
-/

namespace LiveTokens

/-- How a tokenizer goes about its updates. -/
structure Settings where
  /-- Number of edits a token store remembers before it measures its tokens anew. -/
  rebaseThreshold : Nat := 32
  /-- Compare every update with a lexing of the whole text. -/
  verifyIncremental : Bool := false
deriving DecidableEq, Repr

namespace Settings

/-- The edit log of a store is kept shorter than this. -/
def logBound (settings : Settings) : Nat :=
  max settings.rebaseThreshold 1

/-- The key of the rebase threshold. -/
def thresholdKey : String := "rebase_threshold"

/-- The key of the verification. -/
def verifyKey : String := "verify_incremental"

end Settings

end LiveTokens

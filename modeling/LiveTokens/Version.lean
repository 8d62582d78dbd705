/-!
# Versions

A version names one line of descent and a place in it. Objects of different lineages are never
versions of one another, whatever their generations.
-/

namespace LiveTokens

/-- A line of descent and the number of changes made along it. -/
structure Version where
  lineage : Nat
  generation : Nat
deriving DecidableEq, Repr

/-- The version after one more change. -/
def Version.successor (version : Version) : Version :=
  { version with generation := version.generation + 1 }

/-- Objects that know which version they are. -/
class Versioned (α : Type) where
  version : α → Version

end LiveTokens

/-!
# Rollbook — engine errors

What a storage engine reports when it refuses a statement: a number and a text.
-/

namespace Rollbook

/-- An error as the engine reports it. -/
structure EngineError where
  number : UInt16
  message : String
deriving DecidableEq, Repr

/-- The error on one line. -/
def EngineError.text (e : EngineError) : String :=
  s!"Error {e.number.toNat}: {e.message}"

end Rollbook

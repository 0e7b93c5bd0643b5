/-!
# Origins

Where a value came from: the name of its source and, when known, a line and a column counted from
one. A line of zero stands for an unknown position.
-/

namespace LayeredConfig

structure Origin where
  source : String := ""
  line : Int := 0
  column : Int := 0
  deriving DecidableEq, Repr, Inhabited

/-- The source, followed by the position if it is known. -/
def Origin.toText (origin : Origin) : String :=
  let name := if origin.source.isEmpty then "unknown" else origin.source
  if origin.line ≤ 0 then name else s!"{name}:{origin.line}[{origin.column}]"

instance : ToString Origin := ⟨Origin.toText⟩

end LayeredConfig

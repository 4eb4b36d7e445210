/-!
# Joining texts

The parts of a composite element are set apart by a separator, and a part that renders to nothing
leaves no trace: neither a blank place nor a second separator.
-/

namespace DiagnosticReport

namespace Markup

/-- Adds `part` to what has been joined so far, behind a separator unless it is the first. -/
def joinStep (separator joined part : String) : String :=
  if part = "" then joined else if joined = "" then part else joined ++ separator ++ part

/-- The parts that are not empty, in order, with a separator between each two of them. -/
def joinParts (separator : String) (parts : List String) : String :=
  parts.foldl (joinStep separator) ""

/-- Children of an element stand on lines of their own. -/
def lineSeparator : String := "\n"

/-- The parts that are not empty, one below the other. -/
def joinLines (parts : List String) : String :=
  joinParts lineSeparator parts

@[simp] theorem joinStep_empty (separator joined : String) :
    joinStep separator joined "" = joined := by
  simp [joinStep]

@[simp] theorem joinParts_nil (separator : String) : joinParts separator [] = "" := rfl

end Markup

end DiagnosticReport

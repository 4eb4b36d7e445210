/-!
# JSON values

The values a report is made of when it is written as JSON. An object keeps its fields in the order
in which they were given.
-/

namespace DiagnosticReport

/-- A JSON value. Numbers of a report are natural numbers. -/
inductive Json where
  | null
  | number (n : Nat)
  | string (s : String)
  | array (items : List Json)
  | object (fields : List (String × Json))

namespace Json

/-- The value of a part that may be absent. -/
def ofOption {α : Type} (toJson : α → Json) : Option α → Json
  | none => .null
  | some a => toJson a

end Json

end DiagnosticReport

/-!
# TOML values

What a TOML text says. A table remembers how it was defined, since that decides what later lines
may add to it. Floats and points in time are kept as they are written.
-/

namespace DiagnosticReport

namespace Toml

/-- How a table was defined. -/
inductive TableKind where
  /-- By a header of its own. -/
  | header
  /-- On the way to the table of a longer header. -/
  | implied
  /-- By the key of a line, in front of a dot. -/
  | dotted
  /-- Between braces. -/
  | inline
  deriving DecidableEq

/-- A TOML value. -/
inductive Value where
  | string (s : String)
  | integer (n : Int)
  | float (literal : String)
  | boolean (b : Bool)
  | dateTime (literal : String)
  | array (items : List Value)
  | table (kind : TableKind) (entries : List (String × Value))
  /-- Tables that share a header in double brackets, in order. -/
  | tables (elements : List (List (String × Value)))

/-- The keys of a table with their values. -/
abbrev Entries := List (String × Value)

/-- The entries with the value of a key replaced. -/
def Entries.replace (entries : Entries) (key : String) (value : Value) : Entries :=
  entries.map fun entry => if entry.1 = key then (key, value) else entry

end Toml

end DiagnosticReport

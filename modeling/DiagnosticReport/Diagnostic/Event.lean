import DiagnosticReport.Diagnostic.Severity

/-!
# Events

What an analysis says while it runs: a text with a severity. A warning that is meant to be heard
once carries an origin, the identity of the place it comes from; repeats are recognised by it.
-/

namespace DiagnosticReport

/-- The place that a warning comes from. A named place is never the same as a place in code, even
if both are shown alike. -/
inductive Origin where
  /-- A place in code. -/
  | callSite (file : String) (line column : Nat)
  /-- A place that goes by a name. -/
  | named (name : String)
  deriving DecidableEq

/-- How an origin is shown. -/
def Origin.display : Origin → String
  | .callSite file line column => file ++ ":" ++ line.repr ++ ":" ++ column.repr
  | .named name => name

/-- An event. -/
structure Event where
  /-- How grave it is. -/
  severity : Severity
  /-- What it says. -/
  text : String
  /-- Where it comes from, if it is to be reported once only. -/
  origin : Option Origin := none
  deriving DecidableEq

namespace Event

/-- The label of a line that tells of a warning to be reported once. -/
def onceLabel : String := "WARNING ONCE"

/-- A warning to be reported once for its origin. -/
def onceWarning (origin : Origin) (text : String) : Event :=
  { severity := .warning, text, origin := some origin }

/-- Whether an event is to be reported once only. -/
def isOnceOnly (e : Event) : Bool :=
  e.origin.isSome

/-- The label that a log line with this event starts with, if it has one. -/
def label? (e : Event) : Option String :=
  if e.isOnceOnly then some onceLabel else e.severity.label?

/-- The log line with this event. -/
def display (e : Event) : String :=
  match e.label? with
  | some label => label ++ ": " ++ e.text
  | none => e.text

end Event

end DiagnosticReport

/-!
# Severities

How grave an event is, from a plain message to an error. Plain messages are never reported and
have no label in a log; the others are reported.
-/

namespace DiagnosticReport

/-- How grave an event is, in rising order. -/
inductive Severity where
  | message
  | note
  | warning
  | error
  deriving DecidableEq

namespace Severity

/-- The place of a severity in the order. -/
def rank : Severity → Nat
  | .message => 0
  | .note => 1
  | .warning => 2
  | .error => 3

/-- How two severities compare. -/
def compare (a b : Severity) : Ordering :=
  Ord.compare a.rank b.rank

/-- The name of a severity. -/
def name : Severity → String
  | .message => "message"
  | .note => "note"
  | .warning => "warning"
  | .error => "error"

/-- The label that a log line of this severity starts with, if it has one. -/
def label? : Severity → Option String
  | .message => none
  | .note => some "NOTE"
  | .warning => some "WARNING"
  | .error => some "ERROR"

/-- Whether events of this severity are reported. -/
def isReportable (s : Severity) : Bool :=
  s != .message

/-- The severities that are reported are those with a label. -/
theorem isReportable_eq_isSome_label? (s : Severity) : s.isReportable = s.label?.isSome := by
  cases s <;> rfl

end Severity

end DiagnosticReport

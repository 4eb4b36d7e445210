import DiagnosticReport.Diagnostic.Event
import DiagnosticReport.Report.Category
import DiagnosticReport.Stream.Output

/-!
# Errors and notices

What can go wrong while a report is written, and what is told about the work for those who follow
it. An operation on a document or a recorder gives a result, the state it leaves, whatever the
result, and the notices in the order in which they were made (`Step`).
-/

namespace DiagnosticReport

/-- Why a part of a report could not be written. -/
inductive ReportError where
  /-- The output failed. -/
  | io (fault : Fault)
  /-- The document has been closed. -/
  | closed
  deriving DecidableEq

/-- The wording of an error. -/
def ReportError.message : ReportError → String
  | .io fault => "failed to write report: " ++ fault.message
  | .closed => "report document is already closed"

/-- How much a notice matters. -/
inductive NoticeLevel where
  | trace
  | debug
  | warn
  deriving DecidableEq

/-- The name of a level. -/
def NoticeLevel.name : NoticeLevel → String
  | .trace => "TRACE"
  | .debug => "DEBUG"
  | .warn => "WARN"

/-- Something worth telling about the work. -/
inductive Notice where
  /-- A plain message was not reported. -/
  | skippedMessage (event : Event)
  /-- A warning that has been reported was not reported again. -/
  | suppressedRepeat (origin : Origin) (event : Event) (category : Category)
  /-- The category of an event was found. -/
  | classified (severity : Severity) (category : Category)
  /-- A document was closed. -/
  | closedDocument (elements : Nat)
  /-- A recorder was closed. -/
  | closedRecorder (results suppressed onceKeys : Nat)
  /-- A document that was given up could not be closed. -/
  | documentNotClosed (error : ReportError)
  deriving DecidableEq

namespace Notice

/-- How much a notice matters. -/
def level : Notice → NoticeLevel
  | .skippedMessage _ | .suppressedRepeat .. => .trace
  | .classified .. | .closedDocument _ | .closedRecorder .. => .debug
  | .documentNotClosed _ => .warn

/-- The wording of a notice. -/
def message : Notice → String
  | .skippedMessage _ => "Skipping plain message"
  | .suppressedRepeat .. => "Suppressed repeated warning"
  | .classified .. => "Classified event"
  | .closedDocument _ => "Closed report document"
  | .closedRecorder .. => "Closed reporter"
  | .documentNotClosed _ => "Failed to close report document"

/-- The particulars of a notice, by name. -/
def fields : Notice → List (String × String)
  | .skippedMessage event => [("event", event.display)]
  | .suppressedRepeat origin event category =>
    [("origin", origin.display), ("event", event.display), ("taxonomy", category.identifier)]
  | .classified severity category =>
    [("severity", severity.name), ("taxonomy", category.identifier),
      ("class", category.findingClass.identifier)]
  | .closedDocument elements => [("elements", elements.repr)]
  | .closedRecorder results suppressed onceKeys =>
    [("results", results.repr), ("suppressed", suppressed.repr), ("once_keys", onceKeys.repr)]
  | .documentNotClosed error => [("error", error.message)]

end Notice

/-- What an operation gives. -/
structure Step (σ α : Type) where
  /-- What came of it. -/
  result : Except ReportError α
  /-- The state it leaves, also if it failed. -/
  next : σ
  /-- What was told about it. -/
  notices : List Notice := []

end DiagnosticReport

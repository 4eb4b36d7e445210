import DiagnosticReport.Report.Location

/-!
# Traces

The path along which the analysis reached a defect, as a list of steps in the order of execution.
A step of which nothing would be shown is left out; a trace itself is shown even without steps,
since its presence says that a path was recorded.
-/

namespace DiagnosticReport

open Markup

/-- One step of a trace. -/
structure TraceStep where
  /-- Where execution was. -/
  location : Location
  /-- What there is to say about the step. -/
  notes : Option String := none
  deriving DecidableEq

/-- The steps on the way to a defect. -/
structure Trace where
  /-- The steps, in the order of execution. -/
  steps : List TraceStep
  deriving DecidableEq

namespace TraceStep

/-- The elements of the parts of a step that show anything: location, notes. -/
def parts (s : TraceStep) : List Element :=
  s.location.element?.toList ++ (s.notes.bind (Element.text? .notes)).toList

/-- A step shows its parts, unless none of them shows anything. -/
def element? (s : TraceStep) : Option Element :=
  if s.parts.isEmpty then none else some (.group .state [] s.parts)

/-- A step as JSON. -/
def toJson (s : TraceStep) : Json :=
  .object [("location", s.location.toJson), ("notes", .ofOption .string s.notes)]

end TraceStep

namespace Trace

/-- A trace shows those of its steps that show anything. -/
def element (t : Trace) : Element :=
  .group .trace [] (t.steps.filterMap TraceStep.element?)

/-- A trace as JSON. -/
def toJson (t : Trace) : Json :=
  .object [("states", .array (t.steps.map TraceStep.toJson))]

end Trace

end DiagnosticReport

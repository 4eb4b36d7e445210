import DiagnosticReport.Report.Analysis

/-!
# Nodes of a report

Every part of a report can be rendered on its own. `Node` is any such part, with its markup and
its JSON text.
-/

namespace DiagnosticReport

open Markup

/-- Any part of a report. -/
inductive Node where
  | point (point : Point)
  | range (range : Range)
  | file (file : SourceFile)
  | function (function : Function)
  | anchor (anchor : Anchor)
  | location (location : Location)
  | message (text : String)
  | notes (text : String)
  | state (step : TraceStep)
  | trace (trace : Trace)
  | entry (entry : Entry)
  | results (results : Results)
  | generator (generator : Generator)
  | metadata (metadata : Metadata)
  | analysis (analysis : Analysis)
  deriving DecidableEq

namespace Node

/-- The element of a part, if it shows anything. -/
def element? : Node → Option Element
  | .point p => some p.element
  | .range r => some r.element
  | .file f => f.element?
  | .function f => f.element?
  | .anchor a => some a.element
  | .location l => l.element?
  | .message text => Element.text? .message text
  | .notes text => Element.text? .notes text
  | .state s => s.element?
  | .trace t => some t.element
  | .entry e => e.element?
  | .results r => some r.element
  | .generator g => g.element?
  | .metadata m => m.element?
  | .analysis a => some a.element

/-- The markup of a part, empty if it shows nothing. -/
def markup (n : Node) : String :=
  Markup.markup n.element?

/-- A part as JSON. -/
def toJson : Node → Json
  | .point p => p.toJson
  | .range r => r.toJson
  | .file f => f.toJson
  | .function f => f.toJson
  | .anchor a => a.toJson
  | .location l => l.toJson
  | .message text => .string text
  | .notes text => .string text
  | .state s => s.toJson
  | .trace t => t.toJson
  | .entry e => e.toJson
  | .results r => r.toJson
  | .generator g => g.toJson
  | .metadata m => m.toJson
  | .analysis a => a.toJson

end Node

end DiagnosticReport

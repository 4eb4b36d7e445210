import DiagnosticReport.Json.Printer
import DiagnosticReport.Report.Entry

/-!
# The report of an analysis

A report says which tool produced it and lists the entries in the order in which they were found.
The metadata is left out if the tool has neither name nor version; the list of results is shown
even if it is empty.
-/

namespace DiagnosticReport

open Markup

/-- The tool that produced a report. -/
structure Generator where
  /-- The name of the tool. -/
  name : String
  /-- The version of the tool. -/
  version : String
  deriving DecidableEq

/-- Where a report comes from. -/
structure Metadata where
  /-- The tool that produced it. -/
  generator : Generator
  deriving DecidableEq

/-- The entries of a report, in the order in which they were found. -/
abbrev Results := List Entry

/-- A report. -/
structure Analysis where
  /-- Where it comes from. -/
  metadata : Metadata
  /-- What was found. -/
  results : Results := []
  deriving DecidableEq

/-! ### As markup -/

/-- A generator shows its name and version, unless both are empty. -/
def Generator.element? (g : Generator) : Option Element :=
  if g.name = "" ∧ g.version = "" then none
  else some (.leaf .generator [⟨.name, g.name⟩, ⟨.version, g.version⟩])

/-- The metadata shows the generator, if that shows anything. -/
def Metadata.element? (m : Metadata) : Option Element :=
  m.generator.element?.map fun generator => .group .metadata [] [generator]

/-- The results show those of the entries that show anything. -/
def Results.element (r : Results) : Element :=
  .group .results [] (r.filterMap Entry.element?)

namespace Analysis

/-- A report shows its metadata, if there is anything to show, and its results. -/
def element (a : Analysis) : Element :=
  .group .analysis [] (a.metadata.element?.toList ++ [a.results.element])

/-- The report as markup. -/
def markup (a : Analysis) : String :=
  a.element.render

end Analysis

/-! ### As JSON -/

/-- A generator as JSON. -/
def Generator.toJson (g : Generator) : Json :=
  .object [("name", .string g.name), ("version", .string g.version)]

/-- The metadata as JSON. -/
def Metadata.toJson (m : Metadata) : Json :=
  .object [("generator", m.generator.toJson)]

/-- The results as JSON. -/
def Results.toJson (r : Results) : Json :=
  .array (r.map Entry.toJson)

/-- A report as JSON. -/
def Analysis.toJson (a : Analysis) : Json :=
  .object [("metadata", a.metadata.toJson), ("results", a.results.toJson)]

end DiagnosticReport

import DiagnosticReport.Report.Category
import DiagnosticReport.Report.Trace

/-!
# Entries of a report

A report lists issues (defects with a location), failures of the analysis and infos. Each shows
the parts that carry something and is left out if none does; a failure names its kind and an info
its category.
-/

namespace DiagnosticReport

open Markup

/-- A defect at a location, possibly with the path that led there. -/
structure Issue where
  /-- What is wrong. -/
  message : String
  /-- Where it is wrong. -/
  location : Location
  /-- How execution got there, if recorded. -/
  trace : Option Trace := none
  deriving DecidableEq

/-- A hard failure of the analysis. -/
structure Failure where
  /-- The kind of failure. -/
  kind : FailureKind
  /-- The diagnostic text. -/
  message : String
  /-- Where it happened, if known. -/
  location : Option Location := none
  deriving DecidableEq

/-- An informational diagnostic. -/
structure Info where
  /-- What it is about. -/
  category : Category
  /-- The diagnostic text. -/
  message : String
  deriving DecidableEq

/-- An entry of a report. -/
inductive Entry where
  | issue (issue : Issue)
  | failure (failure : Failure)
  | info (info : Info)
  deriving DecidableEq

/-! ### As markup -/

namespace Issue

/-- The elements of the parts of an issue that show anything: message, location, trace. -/
def parts (i : Issue) : List Element :=
  (Element.text? .message i.message).toList ++ i.location.element?.toList ++
    (i.trace.map Trace.element).toList

/-- An issue shows its parts, unless none of them shows anything. -/
def element? (i : Issue) : Option Element :=
  if i.parts.isEmpty then none else some (.group .issue [] i.parts)

end Issue

namespace Failure

/-- The elements of the parts of a failure that show anything: location, message. -/
def parts (f : Failure) : List Element :=
  (f.location.bind Location.element?).toList ++ (Element.text? .message f.message).toList

/-- A failure shows its kind and its parts, unless no part shows anything. -/
def element? (f : Failure) : Option Element :=
  if f.parts.isEmpty then none
  else some (.group .failure [⟨.failureId, f.kind.identifier⟩] f.parts)

end Failure

namespace Info

/-- An info shows its category and its text, unless the text is empty. -/
def element? (i : Info) : Option Element :=
  (Element.text? .message i.message).map fun message =>
    .group .info [⟨.infoId, i.category.identifier⟩] [message]

end Info

namespace Entry

/-- An entry shows the issue, failure or info that it is. -/
def element? : Entry → Option Element
  | .issue i => i.element?
  | .failure f => f.element?
  | .info i => i.element?

/-- The markup of an entry, empty if it shows nothing. -/
def markup (e : Entry) : String :=
  Markup.markup e.element?

/-- The issue that an entry is, if it is one. -/
def issue? : Entry → Option Issue
  | .issue i => some i
  | _ => none

/-- The identifier that an entry shows; an issue has none. -/
def identifier? : Entry → Option String
  | .issue _ => none
  | .failure f => some f.kind.identifier
  | .info i => some i.category.identifier

end Entry

/-! ### As JSON -/

/-- An issue as JSON. -/
def Issue.toJson (i : Issue) : Json :=
  .object [("type", .string "issue"), ("message", .string i.message),
    ("location", i.location.toJson), ("trace", .ofOption Trace.toJson i.trace)]

/-- A failure as JSON. -/
def Failure.toJson (f : Failure) : Json :=
  .object [("type", .string "failure"), ("id", .string f.kind.identifier),
    ("message", .string f.message), ("location", .ofOption Location.toJson f.location)]

/-- An info as JSON. -/
def Info.toJson (i : Info) : Json :=
  .object [("type", .string "info"), ("id", .string i.category.identifier),
    ("message", .string i.message)]

/-- An entry as JSON: the field `type` tells which of the three it is. -/
def Entry.toJson : Entry → Json
  | .issue i => i.toJson
  | .failure f => f.toJson
  | .info i => i.toJson

end DiagnosticReport

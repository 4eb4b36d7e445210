import DiagnosticReport.Json.Value
import DiagnosticReport.Markup.Element

/-!
# Locations

Where in a program a diagnostic belongs: a file, a function and an anchor, which is a point or a
range. Each of the three may be missing, and a location of which nothing would be shown is left
out of the report (`Location.isEmpty`).
-/

namespace DiagnosticReport

open Markup

/-- A position in a source file. -/
structure Point where
  /-- The column. -/
  column : Nat
  /-- The line. -/
  line : Nat
  deriving DecidableEq

/-- A span of a source file. -/
structure Range where
  /-- Where the span starts. -/
  start : Point
  /-- Where the span ends. -/
  stop : Point
  deriving DecidableEq

/-- A position or a span. -/
inductive Anchor where
  | range (range : Range)
  | point (point : Point)
  deriving DecidableEq

/-- A source file, by the path that the analysis tool was given. -/
structure SourceFile where
  /-- The path. -/
  givenPath : String
  deriving DecidableEq

/-- A function of the program under analysis. -/
structure Function where
  /-- Its name. -/
  name : String
  deriving DecidableEq

/-- Where a diagnostic belongs. -/
structure Location where
  /-- The source file, if known. -/
  file : Option SourceFile := none
  /-- The enclosing function, if known. -/
  function : Option Function := none
  /-- The position in the file, if known. -/
  anchor : Option Anchor := none
  deriving DecidableEq

/-! ### As markup -/

/-- A point shows its column and line. -/
def Point.element (p : Point) : Element :=
  .leaf .point [⟨.column, p.column.repr⟩, ⟨.line, p.line.repr⟩]

/-- A range shows its two points. -/
def Range.element (r : Range) : Element :=
  .group .range [] [r.start.element, r.stop.element]

/-- An anchor shows the point or range that it is. -/
def Anchor.element : Anchor → Element
  | .range r => r.element
  | .point p => p.element

/-- A file shows its path, unless that is empty. -/
def SourceFile.element? (f : SourceFile) : Option Element :=
  if f.givenPath = "" then none else some (.leaf .file [⟨.givenPath, f.givenPath⟩])

/-- A function shows its name, unless that is empty. -/
def Function.element? (f : Function) : Option Element :=
  if f.name = "" then none else some (.leaf .function [⟨.name, f.name⟩])

namespace Location

/-- The elements of the parts of a location that show anything: file, function, anchor. -/
def parts (l : Location) : List Element :=
  (l.file.bind SourceFile.element?).toList ++ (l.function.bind Function.element?).toList ++
    (l.anchor.map Anchor.element).toList

/-- A location is empty if none of its parts shows anything. -/
def isEmpty (l : Location) : Bool :=
  l.parts.isEmpty

/-- A location shows its parts, unless it is empty. -/
def element? (l : Location) : Option Element :=
  if l.isEmpty then none else some (.group .location [] l.parts)

/-- The range of a location that is anchored at one. -/
def range? (l : Location) : Option Range :=
  match l.anchor with
  | some (.range r) => some r
  | _ => none

/-- The point of a location that is anchored at one. -/
def point? (l : Location) : Option Point :=
  match l.anchor with
  | some (.point p) => some p
  | _ => none

end Location

/-! ### As JSON -/

/-- A point as JSON. -/
def Point.toJson (p : Point) : Json :=
  .object [("column", .number p.column), ("line", .number p.line)]

/-- A range as JSON. -/
def Range.toJson (r : Range) : Json :=
  .object [("start", r.start.toJson), ("end", r.stop.toJson)]

/-- An anchor as JSON: its only field tells which of the two it is. -/
def Anchor.toJson : Anchor → Json
  | .range r => .object [("range", r.toJson)]
  | .point p => .object [("point", p.toJson)]

/-- A file as JSON. -/
def SourceFile.toJson (f : SourceFile) : Json :=
  .object [("given_path", .string f.givenPath)]

/-- A function as JSON. -/
def Function.toJson (f : Function) : Json :=
  .object [("name", .string f.name)]

/-- A location as JSON; a missing part is null. -/
def Location.toJson (l : Location) : Json :=
  .object [("file", .ofOption SourceFile.toJson l.file),
    ("function", .ofOption Function.toJson l.function),
    ("anchor", .ofOption Anchor.toJson l.anchor)]

end DiagnosticReport

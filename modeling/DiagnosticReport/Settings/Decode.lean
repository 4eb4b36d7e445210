import DiagnosticReport.Settings.Basic
import DiagnosticReport.Toml.Document

/-!
# Settings in TOML

The settings are a record of records. A record is given as a table, in which further keys are
ignored, or as an array of its fields in their order, of which the last may be missing. A setting
that is missing has its default value; only the tool has to be named.
-/

namespace DiagnosticReport

namespace Settings

/-- The fields of a record, by name or by position. A point in time counts as a table without any
of them. -/
def fields? (names : List String) : Toml.Value → Option (List (Option Toml.Value))
  | .table _ entries => some (names.map fun name => entries.lookup name)
  | .array items => some ((List.range names.length).map fun i => items[i]?)
  | .dateTime _ => some (names.map fun _ => none)
  | _ => none

/-- A field that has to be given. -/
def required {α : Type} (decode : Toml.Value → Option α) (field : Option Toml.Value) : Option α :=
  field.bind decode

/-- A field that has a default value. -/
def withDefault {α : Type} (decode : Toml.Value → Option α) (default : α)
    (field : Option Toml.Value) : Option α :=
  match field with
  | none => some default
  | some value => decode value

/-- A text. -/
def string? : Toml.Value → Option String
  | .string s => some s
  | _ => none

/-- A truth value. -/
def boolean? : Toml.Value → Option Bool
  | .boolean b => some b
  | _ => none

/-- Whether a value is a table or an array with nothing in it. -/
def isEmptyCollection : Toml.Value → Bool
  | .table _ entries => entries.isEmpty
  | .array items => items.isEmpty
  | _ => false

/-- A format: its name, or a table with its name as the only key and nothing in it. -/
def format? : Toml.Value → Option Rendering
  | .string s => Rendering.ofName? s
  | .table _ [(key, value)] => if isEmptyCollection value then Rendering.ofName? key else none
  | _ => none

/-- The tool that reports are attributed to. -/
def generator? (value : Toml.Value) : Option Generator := do
  match ← fields? ["name", "version"] value with
  | [name, version] =>
    return { name := ← required string? name, version := ← required string? version }
  | _ => none

/-- What is made of a report. -/
def report? (value : Toml.Value) : Option OutputSettings := do
  match ← fields? ["aggregate_events", "output", "format"] value with
  | [aggregateEvents, output, format] =>
    return {
      aggregateEvents := ← withDefault boolean? false aggregateEvents
      output := ← withDefault (Option.map some ∘ string?) none output
      format := ← withDefault format? .xml format }
  | _ => none

/-- The settings of a root table. -/
def ofToml? (root : Toml.Entries) : Option Settings := do
  return {
    generator := ← required generator? (root.lookup "generator")
    report := ← withDefault report? {} (root.lookup "report") }

/-- The settings that a text gives, before they are checked. -/
def decode? (content : String) : Option Settings :=
  (Toml.parse? content).bind ofToml?

/-- The settings that a text gives, if they are usable. -/
def ofText (content : String) : Except Problem Settings :=
  match decode? content with
  | none => .error .malformed
  | some settings => settings.validate

end Settings

end DiagnosticReport

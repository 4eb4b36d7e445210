import DiagnosticReport.Report.Analysis
import DiagnosticReport.Text.Blank

/-!
# Settings

Which tool a report is attributed to and what is made of it. Settings are usable if the tool has a
name and a version and the path for the document, if there is one, is not blank (`validate`).
-/

namespace DiagnosticReport

/-- How the final report is printed. -/
inductive Rendering where
  | xml
  | json
  deriving DecidableEq

namespace Rendering

/-- The name of a format. -/
def name : Rendering → String
  | .xml => "xml"
  | .json => "json"

/-- The format with a name. -/
def ofName? (s : String) : Option Rendering :=
  [Rendering.xml, .json].find? fun format => format.name == s

end Rendering

/-- What is made of a report. -/
structure OutputSettings where
  /-- Whether findings of events are kept for the final report, as issues are. -/
  aggregateEvents : Bool := false
  /-- Where the document is streamed to, if it is. -/
  output : Option String := none
  /-- How the final report is printed. -/
  format : Rendering := .xml
  deriving DecidableEq

/-- The settings of the program. -/
structure Settings where
  /-- The tool that reports are attributed to. -/
  generator : Generator
  /-- What is made of a report. -/
  report : OutputSettings := {}
  deriving DecidableEq

/-- The version of this program. -/
def programVersion : String := "0.1.0"

/-- The name of this program. -/
def programName : String := "firehose"

namespace Settings

/-- The settings of a run without settings: reports are attributed to the program itself. -/
def default : Settings :=
  { generator := { name := programName, version := programVersion } }

/-- A setting that identifies the tool. -/
inductive GeneratorKey where
  | name
  | version
  deriving DecidableEq

/-- The full name of a setting. -/
def GeneratorKey.path : GeneratorKey → String
  | .name => "generator.name"
  | .version => "generator.version"

/-- Why a text gives no usable settings. -/
inductive Problem where
  /-- The text is not TOML, or its values have other types than the settings. -/
  | malformed
  /-- A setting that identifies the tool is blank. -/
  | missingGenerator (key : GeneratorKey)
  /-- The path for the document is blank. -/
  | emptyOutputPath
  deriving DecidableEq

/-- The wording of a problem. -/
def Problem.message : Problem → String
  | .malformed => "malformed firehose.toml"
  | .missingGenerator key =>
    "`" ++ key.path ++ "` must not be empty: reports need a generator identity"
  | .emptyOutputPath =>
    "`report.output` is set but empty; remove it to print the report instead"

/-- Checks that settings are usable. -/
def validate (s : Settings) : Except Problem Settings :=
  if Text.isBlankText s.generator.name then .error (.missingGenerator .name)
  else if Text.isBlankText s.generator.version then .error (.missingGenerator .version)
  else if s.report.output.any Text.isBlankText then .error .emptyOutputPath
  else .ok s

end Settings

end DiagnosticReport

import DiagnosticReport.Diagnostic.Event
import DiagnosticReport.Text.Blank
import DiagnosticReport.Text.Cut

/-!
# Transcripts

A recorded log holds one event a line: `NOTE: text`, `WARNING: text`, `ERROR: text`,
`WARNING ONCE: text` or `WARNING ONCE [origin]: text`, each possibly behind the tag of the tool
that said it, as in `TOOL: NOTE: text`. Any other line that is not blank is a plain message.
-/

namespace DiagnosticReport

namespace Transcript

/-- The severities that a line can name. -/
def labelled : List Severity :=
  [.note, .warning, .error]

/-- What sets a tag or a label apart from what follows it. -/
def colon : List Char := ": ".toList

/-- A character that the tag of a tool may hold. -/
def isTagChar (c : Char) : Bool :=
  c.isUpper || c.isDigit || c == '_' || c == '-'

/-- The tag of a tool is a word in capitals that is not a label itself. -/
def isTag (tag : List Char) : Bool :=
  !tag.isEmpty && tag.all isTagChar &&
    !labelled.any fun s => s.label? == some (String.ofList tag)

/-- A line without the tag of the tool, if it starts with one. -/
def dropTag (line : List Char) : List Char :=
  match Text.cut? colon line with
  | some (tag, rest) => if isTag tag then rest else line
  | none => line

/-- What follows a label and its colon. -/
def afterLabel? (label : String) (body : List Char) : Option (List Char) :=
  (Text.after? label.toList body).bind (Text.after? colon)

/-- The origin and the text of a warning that names its origin in brackets. -/
def namedOnce? (body : List Char) : Option (List Char × List Char) :=
  ((Text.after? Event.onceLabel.toList body).bind (Text.after? " [".toList)).bind
    (Text.cut? "]: ".toList)

/-- The event of the first of these severities whose label the line starts with. -/
def labelledEvent? (severities : List Severity) (body : List Char) : Option Event :=
  severities.findSome? fun severity =>
    (severity.label?.bind (afterLabel? · body)).map fun text =>
      { severity, text := String.ofList text }

/-- The event that a line without tag tells of. A warning to be reported once that names no origin
has the origin `fallback`. -/
def eventOfBody (fallback : Origin) (body : List Char) : Event :=
  match afterLabel? Event.onceLabel body, namedOnce? body with
  | some text, _ => .onceWarning fallback (String.ofList text)
  | none, some (origin, text) =>
    .onceWarning (.named (String.ofList origin)) (String.ofList text)
  | none, none =>
    (labelledEvent? labelled body).getD { severity := .message, text := String.ofList body }

/-- The event of a line, unless the line is blank. Blank characters at its end, such as the
carriage return of a line that ends in two characters, belong to no event. -/
def eventOfChars? (fallback : Origin) (line : List Char) : Option Event :=
  match Text.trimEnd line with
  | [] => none
  | kept => some (eventOfBody fallback (dropTag kept))

/-- The event of a line, unless the line is blank. -/
def eventOfLine? (line : String) (fallback : Origin) : Option Event :=
  eventOfChars? fallback line.toList

/-- The events of a log, in order. `source` names the log; it is the origin of the warnings to be
reported once that name none. -/
def events (content source : String) : List Event :=
  (content.toList.splitOn '\n').filterMap (eventOfChars? (.named source))

end Transcript

end DiagnosticReport

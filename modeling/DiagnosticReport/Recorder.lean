import DiagnosticReport.Diagnostic.Classification
import DiagnosticReport.Diagnostic.ReportedWarnings
import DiagnosticReport.Stream.Document

/-!
# The recorder

A recorder takes the events of a run and makes findings of them. It passes over plain messages and
over repeats of warnings that are to be reported once, keeps issues (and, if so set, all findings)
for the final report, and streams every finding to a document if it has one.

The tree that is kept never waits for the output: a finding is kept before it is streamed. A
warning to be reported once counts as reported when it has been kept or streamed; if neither came
about, its next occurrence is reported.
-/

namespace DiagnosticReport

/-- The finding that a diagnostic text tells of. -/
def Entry.ofText (text : String) : Entry :=
  let category := Category.ofText text
  match category.failureKind? with
  | some kind => .failure { kind, message := text }
  | none => .info { category, message := text }

/-- How a recorder is set. -/
structure RecorderSettings where
  /-- Whether findings of events are kept for the final report, as issues are. -/
  aggregateEvents : Bool := false
  deriving DecidableEq

/-- A recorder in the course of a run. -/
structure Recorder where
  /-- How it is set. -/
  settings : RecorderSettings
  /-- The warnings that are to be reported once and have been. -/
  reported : ReportedWarnings := {}
  /-- The report so far. -/
  analysis : Analysis
  /-- The document that findings are streamed to. -/
  stream : Option Document := none
  /-- How many repeats have been passed over. -/
  repeats : Nat := 0

namespace Recorder

/-- A recorder at the start of a run, with a document if there is an output for it. -/
def start (metadata : Metadata) (settings : RecorderSettings) (output : Option Output) :
    Recorder :=
  { settings, analysis := { metadata }, stream := output.map (Document.start metadata) }

/-- Keeps an entry for the final report. -/
def keep (r : Recorder) (entry : Entry) : Recorder :=
  { r with analysis := { r.analysis with results := r.analysis.results ++ [entry] } }

/-- Streams an entry, if there is a document. -/
def send (r : Recorder) (entry : Entry) : Except ReportError Unit × Recorder :=
  match r.stream with
  | none => (.ok (), r)
  | some doc =>
    let (result, doc) := doc.write entry.element?
    (result, { r with stream := some doc })

/-- Keeps an entry if asked to, then streams it. -/
def deliver (r : Recorder) (entry : Entry) (kept : Bool) : Except ReportError Unit × Recorder :=
  (if kept then r.keep entry else r).send entry

/-- Whether an event repeats a warning that has been reported. -/
def isRepeat (r : Recorder) (event : Event) : Bool :=
  event.origin.any fun origin => r.reported.contains origin event.text

/-- Counts an event as reported, if it is to be reported once. -/
def markReported (r : Recorder) (event : Event) : Recorder :=
  match event.origin with
  | none => r
  | some origin => { r with reported := r.reported.insert origin event.text }

/-- The notice about a repeat. -/
def repeatNotices (event : Event) : List Notice :=
  event.origin.toList.map fun origin =>
    .suppressedRepeat origin event (Category.ofText event.text)

/-- Records an event: the finding that it led to, if it led to one. -/
def record (r : Recorder) (event : Event) : Step Recorder (Option Entry) :=
  if !event.severity.isReportable then
    { result := .ok none, next := r, notices := [.skippedMessage event] }
  else if r.isRepeat event then
    { result := .ok none
      next := { r with repeats := r.repeats + 1 }
      notices := repeatNotices event }
  else
    let finding := Entry.ofText event.text
    let notices := [.classified event.severity (Category.ofText event.text)]
    match r.deliver finding r.settings.aggregateEvents with
    | (.ok (), r) => { result := .ok (some finding), next := r.markReported event, notices }
    | (.error error, r) =>
      { result := .error error
        next := if r.settings.aggregateEvents then r.markReported event else r
        notices }

/-- Records an issue. It is kept in any case. -/
def addIssue (r : Recorder) (issue : Issue) : Except ReportError Unit × Recorder :=
  r.deliver (.issue issue) true

/-- Hands over the entries kept so far and forgets them. -/
def drainResults (r : Recorder) : Results × Recorder :=
  (r.analysis.results, { r with analysis := { r.analysis with results := [] } })

/-- Counts a warning as reported: whether it is new, and the recorder afterwards. -/
def enter (r : Recorder) (origin : Origin) (text : String) : Bool × Recorder :=
  let (new, reported) := r.reported.enter origin text
  (new, { r with reported })

/-- The output of the document, if there is one. -/
def output? (r : Recorder) : Option Output :=
  r.stream.map Document.output

/-- The notice at the end of a run. -/
def closingNotice (r : Recorder) : Notice :=
  .closedRecorder r.analysis.results.length r.repeats r.reported.size

/-- Ends the run: closes the document, if there is one, and hands over the report. -/
def close (r : Recorder) : Step Recorder Analysis :=
  match r.stream with
  | none => { result := .ok r.analysis, next := r, notices := [r.closingNotice] }
  | some doc =>
    let closing := doc.close
    let r := { r with stream := some closing.next }
    match closing.result with
    | .ok () =>
      { result := .ok r.analysis, next := r, notices := closing.notices ++ [r.closingNotice] }
    | .error error => { result := .error error, next := r, notices := closing.notices }

/-- Gives the run up: what is left to do is to close the document, if there is one. -/
def abandon (r : Recorder) : Recorder × List Notice :=
  match r.stream with
  | none => (r, [])
  | some doc =>
    let (doc, notices) := doc.abandon
    ({ r with stream := some doc }, notices)

/-- To stream an entry touches nothing but the document. -/
theorem send_frame (r : Recorder) (entry : Entry) :
    (r.send entry).2 = { r with stream := (r.send entry).2.stream } := by
  unfold send
  split <;> rfl

end Recorder

end DiagnosticReport

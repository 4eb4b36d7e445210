import DiagnosticReport.Report.Analysis
import DiagnosticReport.Stream.Notice

/-!
# Documents that are written as findings come

A document is a report that reaches its output piece by piece. Its head (everything before the
first entry) is held back until there is a first entry, so that a run without findings writes
nothing. A head that the output accepted in part is continued where it stopped; every other piece
is written as a whole or not at all, and one that failed is not taken up again. Closing writes the
two closing tags, once, and only if something of the head has been accepted.
-/

namespace DiagnosticReport

open Markup

/-- A document on its way to an output. -/
structure Document where
  /-- The bytes before the first entry. -/
  head : List UInt8
  /-- How many of them have been accepted. -/
  headAccepted : Nat := 0
  /-- How many entries have been written. -/
  written : Nat := 0
  /-- Whether the document has been closed. -/
  closed : Bool := false
  /-- Where it goes. -/
  output : Output

namespace Document

/-- The text before the first entry. -/
def headText (metadata : Metadata) : String :=
  joinLines [openingTag GroupTag.analysis.label [], markup metadata.element?,
    openingTag GroupTag.results.label []] ++ lineSeparator

/-- The texts after the last entry. -/
def tailTexts : List String :=
  [closingTag GroupTag.results.label ++ lineSeparator,
    closingTag GroupTag.analysis.label ++ lineSeparator]

/-- A document of which nothing has been written. -/
def start (metadata : Metadata) (output : Output) : Document :=
  { head := Text.utf8 (headText metadata), output }

/-- Writes what the output has not yet accepted of the head. -/
def sendHead (doc : Document) : Except Fault Unit × Document :=
  let (count, stop?, output) := doc.output.send (doc.head.drop doc.headAccepted)
  let doc := { doc with headAccepted := doc.headAccepted + count, output }
  match stop? with
  | none => (.ok (), doc)
  | some .refused => (.error ⟨"write zero", false⟩, doc)
  | some (.failed fault) => (.error fault, doc)

/-- Writes the head, as far as it is missing, then texts, and flushes. -/
def deliver (doc : Document) (texts : List String) : Except Fault Unit × Document :=
  match doc.sendHead with
  | (.error fault, doc) => (.error fault, doc)
  | (.ok (), doc) =>
    let (result, output) := Output.deliver texts doc.output
    (result, { doc with output })

/-- Writes an element on a line of its own and flushes; an element that shows nothing is passed
over. A closed document takes no more elements. -/
def write (doc : Document) (element? : Option Element) : Except ReportError Unit × Document :=
  if doc.closed then (.error .closed, doc)
  else if markup element? = "" then (.ok (), doc)
  else
    match doc.deliver [markup element?, lineSeparator] with
    | (.error fault, doc) => (.error (.io fault), doc)
    | (.ok (), doc) => (.ok (), { doc with written := doc.written + 1 })

/-- Closes the document: completes its head and writes the closing tags, if there is anything to
close, and flushes. Closing again has no effect. -/
def close (doc : Document) : Step Document Unit :=
  if doc.closed then { result := .ok (), next := doc }
  else
    let doc := { doc with closed := true }
    let delivered :=
      if doc.headAccepted = 0 then
        let (result, output) := doc.output.flush
        (result, { doc with output })
      else doc.deliver tailTexts
    match delivered with
    | (.error fault, doc) => { result := .error (.io fault), next := doc }
    | (.ok (), doc) =>
      { result := .ok (), next := doc, notices := [.closedDocument doc.written] }

/-- Closes the document and hands over its output. -/
def finish (doc : Document) : Step Document Output :=
  let closing := doc.close
  { closing with result := closing.result.map fun () => closing.next.output }

/-- Gives the document up: closes it, and tells if that fails. -/
def abandon (doc : Document) : Document × List Notice :=
  let closing := doc.close
  match closing.result with
  | .ok () => (closing.next, closing.notices)
  | .error error => (closing.next, closing.notices ++ [.documentNotClosed error])

end Document

end DiagnosticReport

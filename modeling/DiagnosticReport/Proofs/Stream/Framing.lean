import DiagnosticReport.Proofs.Markup.Lines
import DiagnosticReport.Stream.Document

/-!
# Head and tail of a document

A report as a tree and a document that is streamed are written by different means: the tree is
rendered from the inside to the outside, the document from the first byte to the last. Line by
line they are the same: `Document.headLines`, the lines of the entries, and
`Document.tailLines` are the report with a line break behind it (`Analysis.line_element`).
-/

namespace DiagnosticReport

open Markup

namespace Document

/-- The lines before the first entry. -/
def headLines (metadata : Metadata) : String :=
  "<analysis>\n" ++ Element.lines metadata.element?.toList ++ "<results>\n"

/-- The lines after the last entry. -/
def tailLines : String :=
  "</results>\n</analysis>\n"

theorem lines_toList (element? : Option Element) :
    Element.lines element?.toList =
      String.join (([markup element?].filter (· ≠ "")).map (· ++ lineSeparator)) := by
  cases element? with
  | none => simp
  | some e => simp [Element.render_ne_empty, Element.line]

/-- **The head line by line.** -/
theorem headText_eq_headLines (metadata : Metadata) : headText metadata = headLines metadata := by
  have hopening : ∀ tag : GroupTag, openingTag tag.label [] ≠ "" := by simp [openingTag]
  have hfilter : [openingTag GroupTag.analysis.label [], markup metadata.element?,
      openingTag GroupTag.results.label []].filter (· ≠ "") =
      openingTag GroupTag.analysis.label [] :: ([markup metadata.element?].filter (· ≠ "") ++
        [openingTag GroupTag.results.label []]) := by
    simp [List.filter_cons, hopening]
    split <;> rfl
  rw [headText, joinLines, joinParts_append_separator (by rw [hfilter]; simp), hfilter, headLines,
    lines_toList, List.map_cons, List.map_append, String.join_cons, String.join_append,
    ← String.append_assoc]
  congr 1

theorem length_utf8_headLines_pos (metadata : Metadata) :
    0 < (Text.utf8 (headLines metadata)).length := by
  have hopening : (Text.utf8 "<analysis>\n").length = 11 := by decide
  rw [headLines, Text.utf8_append, Text.utf8_append, List.length_append, List.length_append]
  omega

theorem flatMap_tailTexts : tailTexts.flatMap Text.utf8 = Text.utf8 tailLines := by
  decide +kernel

/-- **A document line by line** is a report that holds these elements. -/
theorem headLines_append_tailLines (metadata : Metadata) (es : List Element) :
    headLines metadata ++ Element.lines es ++ tailLines =
      (Element.group .analysis [] (metadata.element?.toList ++ [.group .results [] es])).line := by
  have hanalysis : openingTag GroupTag.analysis.label [] ++ lineSeparator = "<analysis>\n" := rfl
  have hresults : openingTag GroupTag.results.label [] ++ lineSeparator = "<results>\n" := rfl
  have htail : closingTag GroupTag.results.label ++ lineSeparator ++
      (closingTag GroupTag.analysis.label ++ lineSeparator) = tailLines := rfl
  rw [Element.line_group, Element.lines_append, Element.lines_cons, Element.lines_nil,
    Element.line_group, hanalysis, hresults, headLines, ← htail]
  simp only [String.append_assoc, String.append_empty]

end Document

/-- **The report line by line.** -/
theorem Analysis.line_element (a : Analysis) :
    a.element.line = Document.headLines a.metadata ++
      Element.lines (a.results.filterMap Entry.element?) ++ Document.tailLines :=
  (Document.headLines_append_tailLines a.metadata _).symm

end DiagnosticReport

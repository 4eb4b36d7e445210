import DiagnosticReport.Proofs.Report.Identity
import DiagnosticReport.Proofs.Xml.Documents

/-!
# Reports that are read as XML

A reader of a report finds in it the tools that it names (`Node.generators`) and the texts of its
findings (`Node.findingTexts`). `readsBack_report` says what these are for a report on findings of
texts: the tool with blanks for white space in its name and its version, and the texts with line
breaks for other line ends. If a character is not allowed in XML, the report is not read at all.

So a name is read unchanged if it has no tab, line break or carriage return
(`attributeText_lineText_eq_iff`), and a text if it has no carriage return
(`lineText_eq_self_iff`).
-/

namespace DiagnosticReport

namespace Xml

open Markup

/-! ### What a reader looks for -/

namespace Node

/-- The names and the versions of the tools that a report names. -/
def generators (report : Node) : List (Option String × Option String) :=
  ((report.elements "metadata").flatMap (·.elements "generator")).map fun generator =>
    (generator.attribute? "name", generator.attribute? "version")

/-- The texts of the findings of a report. -/
def findingTexts (report : Node) : List String :=
  ((report.elements "results").flatMap children).flatMap fun finding =>
    (finding.elements "message").map content

end Node

/-- The report of a tool that has a name or a version, on findings with these elements. -/
def reportOf (g : Generator) (findings : List Element) : Element :=
  .group .analysis []
    [.group .metadata [] [.leaf .generator [⟨.name, g.name⟩, ⟨.version, g.version⟩]],
      .group .results [] findings]

theorem reportOf_eq {g : Generator} (hnamed : ¬ (g.name = "" ∧ g.version = ""))
    (findings : List Element) :
    .group .analysis [] ((Metadata.mk g).element?.toList ++ [.group .results [] findings]) =
      reportOf g findings := by
  rw [Metadata.element?, Generator.element?, if_neg hnamed]
  rfl

/-- What a reader makes of the report of a tool on findings of these texts. -/
structure ReadsBack (g : Generator) (texts : List String) (report : String) : Prop where
  /-- All characters are allowed if those of the name, of the version and of the texts are. -/
  allowed : isText report = true ↔ ∀ s ∈ g.name :: g.version :: texts, isText s = true
  /-- With other characters, the report is refused. -/
  refused : isText report = false → read? (Text.utf8 report) = none
  /-- The report names the tool, and its findings have these texts. -/
  read : isText report = true → ∃ doc, read? (Text.utf8 report) = some doc ∧
    doc.generators =
      [(some (attributeText (lineText g.name)), some (attributeText (lineText g.version)))] ∧
    doc.findingTexts = texts.map lineText

/-! ### Strings that are read unchanged -/

theorem lineText_eq_self_iff {s : String} : lineText s = s ↔ '\r' ∉ s.toList := by
  rw [← normalizeLines_eq_self_iff, ← String.toList_inj, lineText, String.toList_ofList]

theorem normalizeSpace_eq_self_iff {c : Char} :
    normalizeSpace c = c ↔ c ≠ '\t' ∧ c ≠ '\n' ∧ c ≠ '\r' := by
  unfold normalizeSpace isSpace
  constructor
  · intro h
    refine ⟨?_, ?_, ?_⟩ <;> rintro rfl <;> exact absurd h (by decide)
  · rintro ⟨htab, hbreak, hreturn⟩
    simp only [beq_false_of_ne htab, beq_false_of_ne hbreak, beq_false_of_ne hreturn, Bool.or_false,
      beq_iff_eq, ite_eq_right_iff]
    exact Eq.symm

theorem attributeText_eq_self_iff {s : String} :
    attributeText s = s ↔ ∀ c ∈ s.toList, c ≠ '\t' ∧ c ≠ '\n' ∧ c ≠ '\r' := by
  rw [← String.toList_inj, attributeText, String.toList_map]
  simpa [normalizeSpace_eq_self_iff] using
    List.map_inj_left (l := s.toList) (f := normalizeSpace) (g := id)

theorem normalizeSpace_normalizeSpace (c : Char) :
    normalizeSpace (normalizeSpace c) = normalizeSpace c := by
  unfold normalizeSpace
  split_ifs <;> rfl

/-- A value of an attribute is read unchanged if it has no white space but blanks. -/
theorem attributeText_lineText_eq_iff {s : String} :
    attributeText (lineText s) = s ↔ ∀ c ∈ s.toList, c ≠ '\t' ∧ c ≠ '\n' ∧ c ≠ '\r' := by
  constructor
  · intro h c hc
    rw [← h, attributeText, String.toList_map] at hc
    obtain ⟨d, -, rfl⟩ := List.mem_map.1 hc
    exact normalizeSpace_eq_self_iff.1 (normalizeSpace_normalizeSpace d)
  · intro h
    have hlines : lineText s = s := lineText_eq_self_iff.2 fun hmem => (h _ hmem).2.2 rfl
    rw [hlines, attributeText_eq_self_iff.2 h]

/-! ### The trees of reports -/

namespace Node

@[simp] theorem content_textNodes (name s : String) :
    (element name [] (textNodes s)).content = s := by
  unfold textNodes
  split_ifs with h
  · rw [h]
    rfl
  · simp [content, children]

/-- Line breaks between the trees of elements do not matter to what is looked for in these. -/
theorem flatMap_ofLines {β : Type} {f : Node → List β} (h : f (.text "\n") = [])
    (es : List Element) : (ofLines es).flatMap f = es.flatMap fun e => f (ofElement e) := by
  induction es with
  | nil => rfl
  | cons e es ih => rw [ofLines, List.flatMap_cons, List.flatMap_cons, h, ih, List.nil_append,
      List.flatMap_cons]

end Node

theorem content_message {text : String} {e : Element}
    (he : (Entry.ofText text).element? = some e) :
    ((Node.ofElement (mapStrings lineText e)).elements "message").map Node.content =
      [lineText text] := by
  obtain ⟨-, tag, key, -, rfl⟩ := Entry.exists_group_of_ofText he
  simp [mapStrings, mapStringsAll, Node.ofElement, Node.ofLines, Node.elements, Node.children,
    Node.name?, TextTag.label]

theorem readable_finding {text : String} {e : Element}
    (he : (Entry.ofText text).element? = some e) : Readable e := by
  obtain ⟨-, tag, key, -, rfl⟩ := Entry.exists_group_of_ofText he
  exact .group (List.nodup_singleton _) (by simpa using Readable.text)

theorem isText_identifier (category : Category) : isText category.identifier = true := by
  cases category <;> decide

theorem isText_finding {text : String} {e : Element}
    (he : (Entry.ofText text).element? = some e) :
    (stringsOf e).all isText = isText text := by
  obtain ⟨-, tag, key, -, rfl⟩ := Entry.exists_group_of_ofText he
  simp [stringsOf, stringsOfAll, isText_identifier]

section Reports

variable {texts : List String} {es : List Element}

theorem findingTexts_ofLines
    (h : List.Forall₂ (fun text e => (Entry.ofText text).element? = some e) texts es) :
    (Node.ofLines (mapStringsAll lineText es)).flatMap
      (fun finding => (finding.elements "message").map Node.content) = texts.map lineText := by
  rw [Node.flatMap_ofLines rfl, mapStringsAll_eq_map, List.flatMap_map]
  induction h with
  | nil => rfl
  | cons he _ ih =>
    rw [List.flatMap_cons, content_message he, ih, List.map_cons, List.singleton_append]

theorem isText_findings
    (h : List.Forall₂ (fun text e => (Entry.ofText text).element? = some e) texts es) :
    (stringsOfAll es).all isText = texts.all isText := by
  induction h with
  | nil => rfl
  | cons he _ ih => rw [stringsOfAll, List.all_append, isText_finding he, ih, List.all_cons]

theorem readable_findings
    (h : List.Forall₂ (fun text e => (Entry.ofText text).element? = some e) texts es) :
    ∀ e ∈ es, Readable e := by
  induction h with
  | nil => simp
  | cons he _ ih => exact List.forall_mem_cons.2 ⟨readable_finding he, ih⟩

theorem generators_report (g : Generator) (es : List Element) :
    (Node.ofElement (mapStrings lineText (reportOf g es))).generators =
      [(some (attributeText (lineText g.name)), some (attributeText (lineText g.version)))] := by
  simp [reportOf, mapStrings, mapStringsAll, mapValue, Node.generators, Node.elements,
    Node.children, Node.name?, Node.ofElement, Node.ofLines, Node.attribute?, attributeOf,
    GroupTag.label, LeafTag.label, Key.label, List.lookup_cons]

theorem findingTexts_report (g : Generator)
    (h : List.Forall₂ (fun text e => (Entry.ofText text).element? = some e) texts es) :
    (Node.ofElement (mapStrings lineText (reportOf g es))).findingTexts = texts.map lineText := by
  rw [← findingTexts_ofLines h]
  simp [reportOf, mapStrings, mapStringsAll, Node.findingTexts, Node.elements, Node.children,
    Node.name?, Node.ofElement, Node.ofLines, GroupTag.label]

theorem readable_report (g : Generator)
    (h : List.Forall₂ (fun text e => (Entry.ofText text).element? = some e) texts es) :
    Readable (reportOf g es) := by
  have hgenerator : Readable (.leaf .generator [⟨.name, g.name⟩, ⟨.version, g.version⟩]) :=
    .leaf (by simp)
  refine .group List.nodup_nil (List.forall_mem_cons.2 ⟨.group List.nodup_nil ?_,
    List.forall_mem_singleton.2 (.group List.nodup_nil (readable_findings h))⟩)
  exact List.forall_mem_singleton.2 hgenerator

/-- **What a report is read as.** -/
theorem readsBack_report (g : Generator)
    (h : List.Forall₂ (fun text e => (Entry.ofText text).element? = some e) texts es) :
    ReadsBack g texts ((reportOf g es).render ++ "\n") := by
  have hread := read?_render (readable_report g h)
  have hstrings : (stringsOf (reportOf g es)).all isText =
      (g.name :: g.version :: texts).all isText := by
    simp [reportOf, stringsOf, stringsOfAll, isText_findings h]
  have hallowed : isText ((reportOf g es).render ++ "\n") =
      (stringsOf (reportOf g es)).all isText := by
    have hbreak : isText "\n" = true := by decide
    rw [isText_append, isText_render, hbreak, Bool.and_true]
  rw [← hallowed] at hread
  refine ⟨?_, fun hchar => ?_, fun hchar => ?_⟩
  · rw [hallowed, hstrings, List.all_eq_true]
  · rw [hread, hchar, if_neg Bool.false_ne_true]
  · rw [hread, hchar, if_pos rfl]
    exact ⟨_, rfl, generators_report g es, findingTexts_report g h⟩

end Reports

end Xml

end DiagnosticReport

import DiagnosticReport.Proofs.Json.UniqueReading
import DiagnosticReport.Proofs.Markup.BlankLines
import DiagnosticReport.Proofs.Stream.Content
import DiagnosticReport.Report.Node

/-!
# Blank lines come from the data

A part of a report that shows nothing is left out, and leaves no blank line behind. So there is a
blank line in the markup of a part only if there is one in a message, in notes, in a path or name,
or in the name or version of the generator, and only if this is shown. `Node.shownStrings` collects
the strings that a part shows, and `SameBlankLines` compares elements with strings; it is proved
part by part, the children of a group first.

The same holds of documents, since a document is a report around the elements that were written
(`Node.blank_lines_of_data`).
-/

namespace DiagnosticReport

open Markup Text

/-! ### What is shown -/

/-- The strings of a part, unless the part is left out. -/
def shownIn (element? : Option Element) (strings : List String) : List String :=
  if element?.isSome then strings else []

/-- A text in an element of its own. -/
def shownText (tag : TextTag) (content : String) : List String :=
  shownIn (Element.text? tag content) [content]

/-- The path of a file. -/
def SourceFile.shownStrings (f : SourceFile) : List String :=
  shownIn f.element? [f.givenPath]

/-- The name of a function. -/
def Function.shownStrings (f : Function) : List String :=
  shownIn f.element? [f.name]

/-- The strings of the file and the function; an anchor has none. -/
def Location.shownStrings (l : Location) : List String :=
  shownIn l.element? (l.file.toList.flatMap SourceFile.shownStrings ++
    l.function.toList.flatMap Function.shownStrings)

/-- The strings of the location and the notes. -/
def TraceStep.shownStrings (s : TraceStep) : List String :=
  shownIn s.element? (s.location.shownStrings ++ s.notes.toList.flatMap (shownText .notes))

/-- The strings of the steps. -/
def Trace.shownStrings (t : Trace) : List String :=
  t.steps.flatMap TraceStep.shownStrings

/-- The message, and the strings of the location and the trace. -/
def Issue.shownStrings (i : Issue) : List String :=
  shownIn i.element? (shownText .message i.message ++ i.location.shownStrings ++
    i.trace.toList.flatMap Trace.shownStrings)

/-- The strings of the location, and the message. -/
def Failure.shownStrings (f : Failure) : List String :=
  shownIn f.element? (f.location.toList.flatMap Location.shownStrings ++
    shownText .message f.message)

/-- The message. -/
def Info.shownStrings (i : Info) : List String :=
  shownIn i.element? (shownText .message i.message)

/-- The strings of the issue, failure or info. -/
def Entry.shownStrings : Entry → List String
  | .issue i => i.shownStrings
  | .failure f => f.shownStrings
  | .info i => i.shownStrings

/-- The strings of the entries. -/
def Results.shownStrings (r : Results) : List String :=
  r.flatMap Entry.shownStrings

/-- The name and the version. -/
def Generator.shownStrings (g : Generator) : List String :=
  shownIn g.element? [g.name, g.version]

/-- The strings of the generator. -/
def Metadata.shownStrings (m : Metadata) : List String :=
  shownIn m.element? m.generator.shownStrings

/-- The strings of the metadata and the results. -/
def Analysis.shownStrings (a : Analysis) : List String :=
  a.metadata.shownStrings ++ Results.shownStrings a.results

/-- **The strings that a part of a report shows.** -/
def Node.shownStrings : Node → List String
  | .point _ | .range _ | .anchor _ => []
  | .file f => f.shownStrings
  | .function f => f.shownStrings
  | .location l => l.shownStrings
  | .message text => shownText .message text
  | .notes text => shownText .notes text
  | .state s => s.shownStrings
  | .trace t => t.shownStrings
  | .entry e => e.shownStrings
  | .results r => Results.shownStrings r
  | .generator g => g.shownStrings
  | .metadata m => m.shownStrings
  | .analysis a => a.shownStrings

/-! ### Strings and elements -/

/-- One of these strings has a blank line exactly if one of these elements has. -/
def SameBlankLines (strings : List String) (es : List Element) : Prop :=
  (∃ e ∈ es, HasBlankLine e.render.toList) ↔ ∃ s ∈ strings, HasBlankLine s.toList

namespace SameBlankLines

variable {α : Type} {strings strings' : List String} {es es' : List Element}

theorem iff {e : Element} (h : SameBlankLines strings [e]) :
    HasBlankLine e.render.toList ↔ ∃ s ∈ strings, HasBlankLine s.toList := by
  unfold SameBlankLines at h
  rw [← h]
  simp

theorem nil : SameBlankLines [] [] := by
  simp [SameBlankLines]

theorem append (h : SameBlankLines strings es) (h' : SameBlankLines strings' es') :
    SameBlankLines (strings ++ strings') (es ++ es') := by
  unfold SameBlankLines at *
  simp only [List.mem_append, or_and_right, exists_or, h, h']

theorem shownIn {element? : Option Element} (h : ∀ e ∈ element?, SameBlankLines strings [e]) :
    SameBlankLines (shownIn element? strings) element?.toList := by
  cases element? with
  | none => exact .nil
  | some e => exact h e rfl

theorem filterMap {f : α → Option Element} {g : α → List String}
    (h : ∀ a, SameBlankLines (g a) (f a).toList) (as : List α) :
    SameBlankLines (as.flatMap g) (as.filterMap f) := by
  induction as with
  | nil => exact .nil
  | cons a as ih =>
    have hcons : (a :: as).filterMap f = (f a).toList ++ as.filterMap f := by
      cases ha : f a <;> simp [ha]
    rw [List.flatMap_cons, hcons]
    exact (h a).append ih

theorem bind {f : α → Option Element} {g : α → List String}
    (h : ∀ a, SameBlankLines (g a) (f a).toList) (o : Option α) :
    SameBlankLines (o.toList.flatMap g) (o.bind f).toList := by
  cases o with
  | none => exact .nil
  | some a => simpa using h a

theorem group (h : SameBlankLines strings es) (tag : GroupTag) {attributes : List Attribute}
    (hvalues : ∀ a ∈ attributes, ¬ HasBlankLine a.value.toList) :
    SameBlankLines strings [.group tag attributes es] := by
  have hnone : ¬ ∃ a ∈ attributes, HasBlankLine a.value.toList := fun ⟨a, ha, hblank⟩ =>
    hvalues a ha hblank
  unfold SameBlankLines
  simp only [List.mem_singleton, exists_eq_left, Element.hasBlankLine_group, hnone, false_or]
  exact h

theorem of_mem_ite {p : Prop} [Decidable p] {e : Element} (h : SameBlankLines strings [e]) :
    ∀ e' ∈ (if p then none else some e), SameBlankLines strings [e'] := by
  intro e' he'
  obtain rfl := Option.mem_some.1 (Option.mem_ite_none_left.1 he').2
  exact h

theorem leaf (tag : LeafTag) (attributes : List Attribute) :
    SameBlankLines (attributes.map Attribute.value) [.leaf tag attributes] := by
  unfold SameBlankLines
  simp [Element.hasBlankLine_leaf]

theorem text (tag : TextTag) (content : String) :
    SameBlankLines (shownText tag content) (Element.text? tag content).toList := by
  have helement : SameBlankLines [content] [.text tag content] := by
    unfold SameBlankLines
    simp [Element.hasBlankLine_text]
  exact .shownIn helement.of_mem_ite

end SameBlankLines

/-! ### The parts of a report -/

theorem not_hasBlankLine_repr (n : Nat) : ¬ HasBlankLine n.repr.toList :=
  not_hasBlankLine_of_not_mem fun hmem => absurd (Json.isDigit_of_mem_repr _ hmem) (by decide)

theorem Category.not_hasBlankLine_identifier (category : Category) :
    ¬ HasBlankLine category.identifier.toList := by
  cases category <;> decide +kernel

theorem Point.sameBlankLines (p : Point) : SameBlankLines [] [p.element] := by
  unfold SameBlankLines
  simp [element, Element.hasBlankLine_leaf, not_hasBlankLine_repr, -Nat.toList_repr]

theorem Range.sameBlankLines (r : Range) : SameBlankLines [] [r.element] :=
  (r.start.sameBlankLines.append r.stop.sameBlankLines).group .range (by simp)

theorem Anchor.sameBlankLines (a : Anchor) : SameBlankLines [] [a.element] := by
  cases a with
  | range r => exact r.sameBlankLines
  | point p => exact p.sameBlankLines

theorem SourceFile.sameBlankLines (f : SourceFile) :
    SameBlankLines f.shownStrings f.element?.toList :=
  .shownIn (SameBlankLines.leaf .file _).of_mem_ite

theorem Function.sameBlankLines (f : Function) :
    SameBlankLines f.shownStrings f.element?.toList :=
  .shownIn (SameBlankLines.leaf .function _).of_mem_ite

theorem Generator.sameBlankLines (g : Generator) :
    SameBlankLines g.shownStrings g.element?.toList :=
  .shownIn (SameBlankLines.leaf .generator _).of_mem_ite

theorem Location.sameBlankLines (l : Location) :
    SameBlankLines l.shownStrings l.element?.toList := by
  have hanchor : SameBlankLines [] (l.anchor.map Anchor.element).toList := by
    cases l.anchor with
    | none => exact .nil
    | some a => exact a.sameBlankLines
  have hparts := ((SameBlankLines.bind SourceFile.sameBlankLines l.file).append
    (.bind Function.sameBlankLines l.function)).append hanchor
  rw [List.append_nil] at hparts
  exact .shownIn (hparts.group .location (by simp)).of_mem_ite

theorem TraceStep.sameBlankLines (s : TraceStep) :
    SameBlankLines s.shownStrings s.element?.toList := by
  have hparts := s.location.sameBlankLines.append (.bind (.text .notes) s.notes)
  exact .shownIn (hparts.group .state (by simp)).of_mem_ite

theorem Trace.sameBlankLines (t : Trace) : SameBlankLines t.shownStrings [t.element] :=
  (SameBlankLines.filterMap TraceStep.sameBlankLines t.steps).group .trace (by simp)

theorem Issue.sameBlankLines (i : Issue) : SameBlankLines i.shownStrings i.element?.toList := by
  have htrace : SameBlankLines (i.trace.toList.flatMap Trace.shownStrings)
      (i.trace.map Trace.element).toList := by
    cases i.trace with
    | none => exact .nil
    | some t => simpa using t.sameBlankLines
  have hparts := ((SameBlankLines.text .message i.message).append
    i.location.sameBlankLines).append htrace
  exact .shownIn (hparts.group .issue (by simp)).of_mem_ite

theorem Failure.sameBlankLines (f : Failure) :
    SameBlankLines f.shownStrings f.element?.toList := by
  have hparts := (SameBlankLines.bind Location.sameBlankLines f.location).append
    (.text .message f.message)
  refine .shownIn (hparts.group .failure ?_).of_mem_ite
  simpa [FailureKind.identifier] using f.kind.category.not_hasBlankLine_identifier

theorem Info.sameBlankLines (i : Info) : SameBlankLines i.shownStrings i.element?.toList := by
  refine .shownIn fun e he => ?_
  obtain ⟨message, hmessage, rfl⟩ := Option.map_eq_some_iff.1 he
  have htext := SameBlankLines.text .message i.message
  rw [hmessage, Option.toList_some] at htext
  refine htext.group .info ?_
  simpa using i.category.not_hasBlankLine_identifier

theorem Entry.sameBlankLines (entry : Entry) :
    SameBlankLines entry.shownStrings entry.element?.toList := by
  cases entry with
  | issue i => exact i.sameBlankLines
  | failure f => exact f.sameBlankLines
  | info i => exact i.sameBlankLines

theorem Metadata.sameBlankLines (m : Metadata) :
    SameBlankLines m.shownStrings m.element?.toList := by
  refine .shownIn fun e he => ?_
  obtain ⟨generator, hgenerator, rfl⟩ := Option.map_eq_some_iff.1 he
  have hchild := m.generator.sameBlankLines
  rw [hgenerator, Option.toList_some] at hchild
  exact hchild.group .metadata (by simp)

theorem SameBlankLines.analysis {strings : List String} {es : List Element}
    (h : SameBlankLines strings es) (m : Metadata) :
    SameBlankLines (m.shownStrings ++ strings)
      [.group .analysis [] (m.element?.toList ++ [.group .results [] es])] :=
  (m.sameBlankLines.append (h.group .results (by simp))).group .analysis (by simp)

theorem Results.sameBlankLines (r : Results) :
    SameBlankLines r.shownStrings (r.filterMap Entry.element?) :=
  .filterMap Entry.sameBlankLines r

namespace Node

/-- **The blank lines of a part of a report** are those of the strings that it shows. -/
theorem sameBlankLines (n : Node) : SameBlankLines n.shownStrings n.element?.toList := by
  cases n with
  | point p => exact p.sameBlankLines
  | range r => exact r.sameBlankLines
  | file f => exact f.sameBlankLines
  | function f => exact f.sameBlankLines
  | anchor a => exact a.sameBlankLines
  | location l => exact l.sameBlankLines
  | message text => exact .text .message text
  | notes text => exact .text .notes text
  | state s => exact s.sameBlankLines
  | trace t => exact t.sameBlankLines
  | entry e => exact e.sameBlankLines
  | results r => exact (Results.sameBlankLines r).group .results (by simp)
  | generator g => exact g.sameBlankLines
  | metadata m => exact m.sameBlankLines
  | analysis a => exact (Results.sameBlankLines a.results).analysis a.metadata

theorem hasBlankLine_markup (n : Node) :
    HasBlankLine n.markup.toList ↔ ∃ s ∈ n.shownStrings, HasBlankLine s.toList := by
  have hsame := n.sameBlankLines
  unfold SameBlankLines at hsame
  rw [← hsame, markup]
  cases n.element? <;> simp

theorem markup_ends (n : Node) :
    n.markup.toList.head? ≠ some '\n' ∧ n.markup.toList.getLast? ≠ some '\n' := by
  rw [markup]
  cases n.element? with
  | none => simp
  | some e => simp [e.head?_render, e.getLast?_render]

/-- The strings that are shown of parts some of which may be missing. -/
def shownStringsOf (nodes : List (Option Node)) : List String :=
  nodes.flatMap fun node? => node?.toList.flatMap shownStrings

theorem sameBlankLines_of_nodes (nodes : List (Option Node)) :
    SameBlankLines (shownStringsOf nodes) ((nodes.map (·.bind element?)).filterMap id) := by
  rw [List.filterMap_map]
  exact .filterMap (fun node? => .bind sameBlankLines node?) nodes

/-- **Blank lines come from the data.**

* The markup of a part of a report has no line break at its start or its end, and it has two
  successive line breaks exactly if one of the strings that it shows has.
* The document to which any parts were written on an output that never fails can be closed; if it is
  not empty then, it has two successive line breaks exactly if one of the strings has that its
  metadata or those parts show. -/
theorem blank_lines_of_data :
    (∀ n : Node, n.markup.toList.head? ≠ some '\n' ∧ n.markup.toList.getLast? ≠ some '\n' ∧
      (HasBlankLine n.markup.toList ↔ ∃ s ∈ n.shownStrings, HasBlankLine s.toList)) ∧
    ∀ (metadata : Metadata) (out : Output), out.Reliable → ∀ nodes : List (Option Node),
      (Document.ofElements metadata out (nodes.map (·.bind element?))).close.result = .ok () ∧
      ∃ text : String,
        (Document.ofElements metadata out (nodes.map (·.bind element?))).close.next.output.bytes =
          out.bytes ++ Text.utf8 text ∧
        (text ≠ "" → (HasBlankLine text.toList ↔
          ∃ s ∈ metadata.shownStrings ++ shownStringsOf nodes, HasBlankLine s.toList)) := by
  refine ⟨fun n => ⟨n.markup_ends.1, n.markup_ends.2, n.hasBlankLine_markup⟩,
    fun metadata out hreliable nodes => ?_⟩
  obtain ⟨hresult, hbytes⟩ :=
    Document.close_ofElements metadata hreliable (nodes.map (·.bind element?))
  refine ⟨hresult, ?_⟩
  by_cases hnone : (nodes.map (·.bind element?)).filterMap id = []
  · rw [if_pos hnone] at hbytes
    exact ⟨"", by rw [hbytes, Text.utf8_empty], fun hne => absurd rfl hne⟩
  · rw [if_neg hnone] at hbytes
    refine ⟨_, hbytes, fun _ => ?_⟩
    rw [Element.hasBlankLine_line]
    exact ((sameBlankLines_of_nodes nodes).analysis metadata).iff

/-- Line breaks at the end of one string and at the start of the next one, next to parts that show
nothing: they do not meet. -/
theorem blank_lines_of_data_apart :
    Output.flawless.Reliable ∧
    ∃ text : String, (Document.ofElements ⟨⟨"x\n", "\ny"⟩⟩ .flawless
        ([some (.message "a\n"), none, some (.message ""), some (.notes "\nb")].map
          (·.bind element?))).close.next.output.bytes = Text.utf8 text ∧
      text ≠ "" ∧ ¬ HasBlankLine text.toList := by
  obtain ⟨-, hdocument⟩ := blank_lines_of_data
  obtain ⟨-, text, hbytes, hblank⟩ := hdocument ⟨⟨"x\n", "\ny"⟩⟩ .flawless Output.reliable_flawless
    [some (.message "a\n"), none, some (.message ""), some (.notes "\nb")]
  have hne : text ≠ "" := by
    rintro rfl
    exact absurd hbytes (by decide +kernel)
  refine ⟨Output.reliable_flawless, text, hbytes, hne, ?_⟩
  rw [hblank hne]
  decide +kernel

end Node

end DiagnosticReport

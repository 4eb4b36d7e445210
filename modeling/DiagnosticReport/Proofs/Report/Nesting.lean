import DiagnosticReport.Proofs.Markup.Nesting
import DiagnosticReport.Proofs.Stream.Content
import DiagnosticReport.Report.Node

/-!
# Reports are well nested

Every part of a report decides for itself whether it shows anything. The decision agrees with what
its children show: an element of a report is left empty only if it is a trace or the list of
results (`Node.filled_of_mem_element?`). So the markup of a part is empty or one well-nested
element, and so is the document that entries are streamed to
(`Node.markup_wellNested`).
-/

namespace DiagnosticReport

open Markup

/-! ### Children of a group -/

namespace Markup.Element

variable {α : Type}

theorem filled_of_mem_unless {p : Prop} [Decidable p] {e : Element} (h : ¬ p → e.Filled) :
    ∀ e' ∈ (if p then none else some e), e'.Filled := by
  intro e' he'
  obtain ⟨hnot, he⟩ := Option.mem_ite_none_left.1 he'
  obtain rfl := Option.mem_some.1 he
  exact h hnot

theorem filled_of_mem_ite {tag : GroupTag} {attributes : List Attribute} {parts : List Element}
    (h : ∀ e ∈ parts, e.Filled) :
    ∀ e ∈ (if parts.isEmpty then none else some (group tag attributes parts)), e.Filled :=
  filled_of_mem_unless fun hne => .group (fun hnil => absurd (List.isEmpty_iff.2 hnil) hne) h

theorem filled_of_mem_text? {tag : TextTag} {content : String} :
    ∀ e ∈ text? tag content, e.Filled :=
  filled_of_mem_unless .text

theorem filled_of_mem_bind {f : α → Option Element} (h : ∀ a, ∀ e ∈ f a, e.Filled)
    (o : Option α) : ∀ e ∈ (o.bind f).toList, e.Filled := by
  intro e he
  obtain ⟨a, -, hfa⟩ := Option.bind_eq_some_iff.1 (Option.mem_toList.1 he)
  exact h a e hfa

theorem filled_of_mem_map {f : α → Element} (h : ∀ a, (f a).Filled) (o : Option α) :
    ∀ e ∈ (o.map f).toList, e.Filled := by
  intro e he
  obtain ⟨a, -, rfl⟩ := Option.map_eq_some_iff.1 (Option.mem_toList.1 he)
  exact h a

theorem filled_of_mem_filterMap {f : α → Option Element} (h : ∀ a, ∀ e ∈ f a, e.Filled)
    (as : List α) : ∀ e ∈ as.filterMap f, e.Filled := by
  intro e he
  obtain ⟨a, -, hfa⟩ := List.mem_filterMap.1 he
  exact h a e hfa

end Markup.Element

open Markup.Element

/-! ### The parts of a report -/

theorem Point.filled_element (p : Point) : p.element.Filled := .leaf

theorem Range.filled_element (r : Range) : r.element.Filled :=
  .group (by simp) (by simp [Point.filled_element])

theorem Anchor.filled_element (a : Anchor) : a.element.Filled := by
  cases a with
  | range r => exact r.filled_element
  | point p => exact p.filled_element

theorem SourceFile.filled_of_mem_element? (f : SourceFile) : ∀ e ∈ f.element?, e.Filled :=
  filled_of_mem_unless fun _ => .leaf

theorem Function.filled_of_mem_element? (f : Function) : ∀ e ∈ f.element?, e.Filled :=
  filled_of_mem_unless fun _ => .leaf

theorem Generator.filled_of_mem_element? (g : Generator) : ∀ e ∈ g.element?, e.Filled :=
  filled_of_mem_unless fun _ => .leaf

theorem Location.filled_of_mem_element? (l : Location) : ∀ e ∈ l.element?, e.Filled := by
  refine filled_of_mem_ite ?_
  rw [parts, List.forall_mem_append, List.forall_mem_append]
  exact ⟨⟨filled_of_mem_bind SourceFile.filled_of_mem_element? _,
    filled_of_mem_bind Function.filled_of_mem_element? _⟩,
    filled_of_mem_map Anchor.filled_element _⟩

theorem TraceStep.filled_of_mem_element? (s : TraceStep) : ∀ e ∈ s.element?, e.Filled := by
  refine filled_of_mem_ite ?_
  rw [parts, List.forall_mem_append]
  refine ⟨fun e he => ?_, filled_of_mem_bind (fun _ => filled_of_mem_text?) _⟩
  exact s.location.filled_of_mem_element? e (Option.mem_toList.1 he)

theorem Trace.filled_element (t : Trace) : t.element.Filled :=
  .group (fun _ => .inl rfl) (filled_of_mem_filterMap TraceStep.filled_of_mem_element? _)

theorem Issue.filled_of_mem_element? (i : Issue) : ∀ e ∈ i.element?, e.Filled := by
  refine filled_of_mem_ite ?_
  rw [parts, List.forall_mem_append, List.forall_mem_append]
  refine ⟨⟨fun e he => ?_, fun e he => ?_⟩, filled_of_mem_map Trace.filled_element _⟩
  · exact filled_of_mem_text? e (Option.mem_toList.1 he)
  · exact i.location.filled_of_mem_element? e (Option.mem_toList.1 he)

theorem Failure.filled_of_mem_element? (f : Failure) : ∀ e ∈ f.element?, e.Filled := by
  refine filled_of_mem_ite ?_
  rw [parts, List.forall_mem_append]
  refine ⟨filled_of_mem_bind Location.filled_of_mem_element? _, fun e he => ?_⟩
  exact filled_of_mem_text? e (Option.mem_toList.1 he)

theorem Info.filled_of_mem_element? (i : Info) : ∀ e ∈ i.element?, e.Filled := by
  intro e he
  obtain ⟨message, hmessage, rfl⟩ := Option.map_eq_some_iff.1 he
  refine .group (by simp) fun e he => ?_
  rw [List.mem_singleton.1 he]
  exact filled_of_mem_text? message hmessage

theorem Entry.filled_of_mem_element? (entry : Entry) : ∀ e ∈ entry.element?, e.Filled := by
  cases entry with
  | issue i => exact i.filled_of_mem_element?
  | failure f => exact f.filled_of_mem_element?
  | info i => exact i.filled_of_mem_element?

theorem Metadata.filled_of_mem_element? (m : Metadata) : ∀ e ∈ m.element?, e.Filled := by
  intro e he
  obtain ⟨generator, hgenerator, rfl⟩ := Option.map_eq_some_iff.1 he
  refine .group (by simp) fun e he => ?_
  rw [List.mem_singleton.1 he]
  exact m.generator.filled_of_mem_element? generator hgenerator

theorem Results.filled_element (r : Results) : r.element.Filled :=
  .group (fun _ => .inr rfl) (filled_of_mem_filterMap Entry.filled_of_mem_element? _)

theorem Analysis.filled_element (a : Analysis) : a.element.Filled := by
  refine .group (by simp) ?_
  rw [List.forall_mem_append]
  refine ⟨fun e he => ?_, by simp [Results.filled_element]⟩
  exact a.metadata.filled_of_mem_element? e (Option.mem_toList.1 he)

namespace Node

/-- **What a part of a report shows** is left empty nowhere but in traces and results. -/
theorem filled_of_mem_element? (n : Node) : ∀ e ∈ n.element?, e.Filled := by
  cases n with
  | point p => simpa [element?] using p.filled_element
  | range r => simpa [element?] using r.filled_element
  | file f => exact f.filled_of_mem_element?
  | function f => exact f.filled_of_mem_element?
  | anchor a => simpa [element?] using a.filled_element
  | location l => exact l.filled_of_mem_element?
  | message text => exact filled_of_mem_text?
  | notes text => exact filled_of_mem_text?
  | state s => exact s.filled_of_mem_element?
  | trace t => simpa [element?] using t.filled_element
  | entry e => exact e.filled_of_mem_element?
  | results r => simpa [element?] using r.filled_element
  | generator g => exact g.filled_of_mem_element?
  | metadata m => exact m.filled_of_mem_element?
  | analysis a => simpa [element?] using a.filled_element

/-- **Reports are well nested.** The markup of every part of a report is empty or exactly one
element, with all its tags nested and nothing left empty that has to hold something. The same, with
a line break behind it, is the document to which entries were written on an output that never
fails, when it has been closed, if one of the entries shows anything. -/
theorem markup_wellNested :
    (∀ n : Node, n.markup = "" ∨ WellNested n.markup) ∧
    ∀ (metadata : Metadata) (out : Output), out.Reliable → ∀ entries : Results,
      (∃ entry ∈ entries, entry.markup ≠ "") →
        (Document.ofEntries metadata out entries).close.result = .ok () ∧
        ∃ text, (Document.ofEntries metadata out entries).close.next.output.bytes =
            out.bytes ++ Text.utf8 (text ++ "\n") ∧ WellNested text := by
  refine ⟨fun n => ?_, ?_⟩
  · rw [markup]
    cases helement : n.element? with
    | none => exact .inl rfl
    | some e => exact .inr (n.filled_of_mem_element? e helement).wellNested_render
  · rintro metadata out hreliable entries ⟨entry, hentry, hshows⟩
    obtain ⟨hresult, hbytes⟩ := (Document.Carries.ofEntries metadata hreliable entries).close
    have hsome : Results.shown entries ≠ [] := fun hnone =>
      hshows (Results.shown_eq_nil_iff.1 hnone entry hentry)
    rw [if_neg hsome] at hbytes
    exact ⟨hresult, _, hbytes, (Analysis.filled_element _).wellNested_render⟩

/-- A generator and a message that look like tags, next to an issue that shows nothing and an
issue of which only an empty trace is shown. -/
theorem markup_wellNested_tagLike :
    Output.flawless.Reliable ∧
    (∃ entry ∈ [.issue { message := "", location := {} },
        .issue { message := "", location := {}, trace := some ⟨[]⟩ },
        Entry.info ⟨.other, "</message>\n<a b=\"c\">"⟩], entry.markup ≠ "") ∧
    ∃ text, (Document.ofEntries ⟨⟨"\"/>", ""⟩⟩ .flawless
        [.issue { message := "", location := {} },
          .issue { message := "", location := {}, trace := some ⟨[]⟩ },
          .info ⟨.other, "</message>\n<a b=\"c\">"⟩]).close.next.output.bytes =
        Text.utf8 (text ++ "\n") ∧ WellNested text := by
  have hshows : ∃ entry ∈ [.issue { message := "", location := {} },
      .issue { message := "", location := {}, trace := some ⟨[]⟩ },
      Entry.info ⟨.other, "</message>\n<a b=\"c\">"⟩], entry.markup ≠ "" := by
    decide +kernel
  obtain ⟨-, hdocument⟩ := markup_wellNested
  obtain ⟨-, text, hbytes, hnested⟩ :=
    hdocument ⟨⟨"\"/>", ""⟩⟩ .flawless Output.reliable_flawless _ hshows
  exact ⟨Output.reliable_flawless, hshows, text, hbytes, hnested⟩

end Node

end DiagnosticReport

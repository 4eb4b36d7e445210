import DiagnosticReport.Proofs.Markup.Tags
import DiagnosticReport.Recorder

/-!
# Reports that name their tool

A report names the tool that produced it in a block of metadata in front of its results. Messages
may hold what looks like such a block, but they are escaped, so that the report has no other one
(`Generator.Identifies`). This holds of every report on findings of texts whose tool has a name or a
version (`Generator.identifies_markup`); without both, there is no metadata.
-/

namespace DiagnosticReport

open Markup

/-- A text that has exactly one block of metadata, in front of its results, and names in it this
tool: of the tags of the text, the ones behind are those of failures, infos and their messages. -/
def Generator.Identifies (g : Generator) (text : String) : Prop :=
  ∃ name version found,
    tags text.toList =
      ["analysis", "metadata", "generator name=\"" ++ name ++ "\" version=\"" ++ version ++ "\"/",
        "/metadata", "results"] ++ found ++ ["/results", "/analysis"] ∧
    (∀ tag ∈ found, tagName tag ∈ ["failure", "info", "message"]) ∧
    (∀ c ∈ name.toList ++ version.toList, c ≠ '"') ∧
    unescape name.toList = g.name.toList ∧ unescape version.toList = g.version.toList

theorem Entry.exists_group_of_ofText {text : String} {e : Element}
    (he : (ofText text).element? = some e) :
    text ≠ "" ∧ ∃ tag key, (tag = .failure ∨ tag = .info) ∧
      e = .group tag [⟨key, (Category.ofText text).identifier⟩] [.text .message text] := by
  have hne : text ≠ "" := by
    rintro rfl
    unfold ofText at he
    dsimp only at he
    split at he <;>
      simp [element?, Failure.element?, Failure.parts, Info.element?, Element.text?] at he
  refine ⟨hne, ?_⟩
  unfold ofText at he
  dsimp only at he
  split at he
  next kind hkind =>
    simp only [element?, Failure.element?, Failure.parts, Element.text?, hne, Option.bind_none,
      if_false, Option.toList_none, Option.toList_some, List.nil_append, List.isEmpty_cons,
      Bool.false_eq_true, Option.some.injEq] at he
    rw [FailureKind.identifier, Category.failureKind?_eq_some_iff.1 hkind] at he
    exact ⟨.failure, _, .inl rfl, he.symm⟩
  next =>
    simp only [element?, Info.element?, Element.text?, hne, if_false, Option.map_some,
      Option.some.injEq] at he
    exact ⟨.info, _, .inr rfl, he.symm⟩

theorem Entry.tagName_of_mem_tagList {text : String} {e : Element}
    (he : (ofText text).element? = some e) :
    ∀ tag ∈ e.tagList, tagName tag ∈ ["failure", "info", "message"] := by
  obtain ⟨-, tag, key, htag, rfl⟩ := exists_group_of_ofText he
  have hlabel : tag.label ∈ ["failure", "info", "message"] := by
    rcases htag with rfl | rfl <;> decide
  intro inside hinside
  simp only [Element.tagList, Element.tagLists, List.append_nil, List.mem_cons, List.mem_append,
    List.not_mem_nil, or_false] at hinside
  rcases hinside with rfl | (rfl | rfl) | rfl
  · rwa [tagName_tagText tag.isName_label]
  · decide
  · decide
  · rwa [tagName_closing tag.isName_label]

theorem Generator.tagText_eq (g : Generator) :
    tagText LeafTag.generator.label [⟨.name, g.name⟩, ⟨.version, g.version⟩] ++ "/" =
      "generator name=\"" ++ escape .quoted g.name ++ "\" version=\"" ++
        escape .quoted g.version ++ "\"/" := by
  apply String.toList_inj.1
  simp [tagText, Attribute.render, LeafTag.label, Key.label]

/-- **A report names its tool**, if that has a name or a version; a line break behind the report
makes no difference. -/
theorem Generator.identifies_markup {g : Generator} (hnamed : ¬ (g.name = "" ∧ g.version = ""))
    {results : Results} (hresults : ∀ entry ∈ results, ∃ text, entry = .ofText text)
    {ending : String} (hending : ∀ c ∈ ending.toList, c ≠ '<' ∧ c ≠ '>') :
    g.Identifies ({ metadata := ⟨g⟩, results : Analysis }.markup ++ ending) := by
  have helement : g.element? = some (.leaf .generator [⟨.name, g.name⟩, ⟨.version, g.version⟩]) :=
    if_neg hnamed
  have htags : tags ({ metadata := ⟨g⟩, results : Analysis }.markup ++ ending).toList =
      ["analysis", "metadata", "generator name=\"" ++ escape .quoted g.name ++ "\" version=\"" ++
        escape .quoted g.version ++ "\"/", "/metadata", "results"] ++
        Element.tagLists (results.filterMap Entry.element?) ++ ["/results", "/analysis"] := by
    have hrender := Element.hasTags_render { metadata := ⟨g⟩, results : Analysis }.element
    rw [String.toList_append, ← g.tagText_eq]
    refine (hrender.append (.of_not_bracket hending)).tags_eq.trans ?_
    simp [Analysis.element, Metadata.element?, helement, Results.element, Element.tagList,
      Element.tagLists, tagText, GroupTag.label]
  have hquote : ∀ value : String, ∀ c ∈ (escape .quoted value).toList, c ≠ '"' := by
    intro value d hd
    rw [toList_escape] at hd
    exact ne_quote_of_mem_escaped hd
  have hread : ∀ value : String, unescape (escape .quoted value).toList = value.toList := by
    intro value
    rw [toList_escape, unescape_flatMap_escapeChar]
  refine ⟨_, _, _, htags, fun tag htag => ?_, fun c hc => ?_, hread _, hread _⟩
  · rw [Element.tagLists_eq_flatMap] at htag
    obtain ⟨e, he, htag⟩ := List.mem_flatMap.1 htag
    obtain ⟨entry, hentry, he⟩ := List.mem_filterMap.1 he
    obtain ⟨text, rfl⟩ := hresults entry hentry
    exact Entry.tagName_of_mem_tagList he tag htag
  · rcases List.mem_append.1 hc with hc | hc <;> exact hquote _ c hc

end DiagnosticReport

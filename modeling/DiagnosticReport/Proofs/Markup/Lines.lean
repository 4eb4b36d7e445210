import DiagnosticReport.Markup.Element
import DiagnosticReport.Proofs.Markup.Joining

/-!
# Markup line by line

Joined parts are easier to take apart when the separator is put behind every part instead of
between two of them (`joinParts_append_separator`): then the parts of a part can be listed in its
place. So `Element.line` is an element with the line break behind it, and a group on lines of its
own is its opening tag, the lines of its children and its closing tag (`Element.line_group`),
however deep the children go.

`Element.induction` is the induction over elements in which the children of a group are at hand
one by one.
-/

namespace DiagnosticReport

namespace Markup

namespace Element

/-- **Induction over elements.** -/
@[elab_as_elim, induction_eliminator]
theorem induction {motive : Element → Prop}
    (leaf : ∀ tag attributes, motive (.leaf tag attributes))
    (text : ∀ tag content, motive (.text tag content))
    (group : ∀ tag attributes children, (∀ e ∈ children, motive e) →
      motive (.group tag attributes children)) : ∀ e, motive e
  | .leaf tag attributes => leaf tag attributes
  | .text tag content => text tag content
  | .group tag attributes children =>
    group tag attributes children fun e _ => induction leaf text group e

/-- An element with the line break behind it. -/
def line (e : Element) : String :=
  e.render ++ lineSeparator

/-- Elements one below the other, each with the line break behind it. -/
def lines (es : List Element) : String :=
  String.join (es.map line)

@[simp] theorem lines_nil : lines [] = "" := by simp [lines]

@[simp] theorem lines_cons (e : Element) (es : List Element) :
    lines (e :: es) = e.line ++ lines es := by
  simp [lines]

@[simp] theorem lines_append (es fs : List Element) :
    lines (es ++ fs) = lines es ++ lines fs := by
  simp [lines]

theorem render_ne_empty (e : Element) : e.render ≠ "" := by
  cases e with
  | leaf tag attributes => simp [render, selfClosingTag]
  | text tag content => simp [render, openingTag]
  | group tag attributes children =>
    have hopen : openingTag tag.label attributes ≠ "" := by simp [openingTag]
    intro hempty
    exact hopen (joinParts_eq_empty_iff.1 hempty _ List.mem_cons_self)

@[simp] theorem line_leaf (tag : LeafTag) (attributes : List Attribute) :
    (leaf tag attributes).line = selfClosingTag tag.label attributes ++ lineSeparator := rfl

@[simp] theorem line_text (tag : TextTag) (content : String) :
    (text tag content).line =
      openingTag tag.label [] ++ escape .content content ++ closingTag tag.label ++
        lineSeparator := rfl

/-- **A group on lines of its own.** -/
theorem line_group (tag : GroupTag) (attributes : List Attribute) (children : List Element) :
    (group tag attributes children).line =
      openingTag tag.label attributes ++ lineSeparator ++ lines children ++
        (closingTag tag.label ++ lineSeparator) := by
  have hparts : (openingTag tag.label attributes ::
      (renderAll children ++ [closingTag tag.label])).filter (· ≠ "") =
      openingTag tag.label attributes :: (renderAll children ++ [closingTag tag.label]) := by
    rw [List.filter_eq_self, renderAll_eq_map]
    intro part hpart
    simp only [List.mem_cons, List.mem_append, List.mem_map, List.not_mem_nil, or_false] at hpart
    rcases hpart with rfl | ⟨e, -, rfl⟩ | rfl
    · simp [openingTag]
    · simpa using e.render_ne_empty
    · simp [closingTag]
  rw [line, render, joinLines, joinParts_append_separator (by rw [hparts]; simp), hparts]
  have hlines : lines children = String.join (children.map fun e => e.render ++ lineSeparator) :=
    rfl
  simp [renderAll_eq_map, hlines, Function.comp_def, String.append_assoc]

end Element

end Markup

end DiagnosticReport

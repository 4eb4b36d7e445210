import DiagnosticReport.Markup.Escape
import DiagnosticReport.Markup.Join
import DiagnosticReport.Markup.Vocabulary

/-!
# Elements

A report is a tree of elements before it is a text. An element without content closes itself, a
text stands between its tags, and the children of a group stand on lines of their own between
the tags of the group. Texts and attribute values are escaped here and nowhere else.

A part of a report that carries nothing worth reporting has no element at all; `markup` writes
it as the empty text, and composites leave it out.
-/

namespace DiagnosticReport

namespace Markup

/-- An attribute with its value as it is meant, not yet escaped. -/
structure Attribute where
  /-- The name of the attribute. -/
  key : Key
  /-- What it is set to. -/
  value : String
  deriving DecidableEq

/-- A piece of markup. -/
inductive Element where
  /-- An element without content. -/
  | leaf (tag : LeafTag) (attributes : List Attribute)
  /-- An element around a text. -/
  | text (tag : TextTag) (content : String)
  /-- An element around further elements. -/
  | group (tag : GroupTag) (attributes : List Attribute) (children : List Element)

/-- An attribute inside a tag, with the blank before it. -/
def Attribute.render (a : Attribute) : String :=
  " " ++ a.key.label ++ "=\"" ++ escape .quoted a.value ++ "\""

/-- The inside of an opening tag. -/
def tagText (label : String) (attributes : List Attribute) : String :=
  label ++ String.join (attributes.map Attribute.render)

/-- An opening tag. -/
def openingTag (label : String) (attributes : List Attribute) : String :=
  "<" ++ tagText label attributes ++ ">"

/-- The tag that closes an element. -/
def closingTag (label : String) : String :=
  "</" ++ label ++ ">"

/-- The tag of an element that closes itself. -/
def selfClosingTag (label : String) (attributes : List Attribute) : String :=
  "<" ++ tagText label attributes ++ "/>"

namespace Element

mutual

/-- The text of an element. -/
def render : Element → String
  | .leaf tag attributes => selfClosingTag tag.label attributes
  | .text tag content => openingTag tag.label [] ++ escape .content content ++ closingTag tag.label
  | .group tag attributes children =>
    joinLines (openingTag tag.label attributes :: (renderAll children ++ [closingTag tag.label]))

/-- The texts of several elements. -/
def renderAll : List Element → List String
  | [] => []
  | e :: es => render e :: renderAll es

end

/-- Elements are rendered one by one. -/
theorem renderAll_eq_map (es : List Element) : renderAll es = es.map render := by
  induction es with
  | nil => rfl
  | cons e es ih => rw [renderAll, ih, List.map_cons]

/-- An element around a text; a text that is empty needs none. -/
def text? (tag : TextTag) (content : String) : Option Element :=
  if content = "" then none else some (.text tag content)

end Element

/-- The text of a part of a report, empty if the part carries nothing. -/
def markup : Option Element → String
  | none => ""
  | some e => e.render

@[simp] theorem markup_none : markup none = "" := rfl

@[simp] theorem markup_some (e : Element) : markup (some e) = e.render := rfl

end Markup

end DiagnosticReport

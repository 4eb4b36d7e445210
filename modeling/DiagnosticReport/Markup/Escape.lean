/-!
# Escaping

Characters that would be read as markup are written as entities: `&`, `<` and `>` everywhere, and
`"` where a quoted value holds it. All other characters stand for themselves.
-/

namespace DiagnosticReport

namespace Markup

/-- Where a text stands in a document. -/
inductive Place where
  /-- Between two tags. -/
  | content
  /-- Between the quotes of an attribute. -/
  | quoted
  deriving DecidableEq

/-- How one character is written. -/
def escapeChar (place : Place) (c : Char) : List Char :=
  if c = '&' then "&amp;".toList
  else if c = '<' then "&lt;".toList
  else if c = '>' then "&gt;".toList
  else if c = '"' ∧ place = .quoted then "&quot;".toList
  else [c]

/-- How a text is written. -/
def escape (place : Place) (s : String) : String :=
  String.ofList (s.toList.flatMap (escapeChar place))

@[simp] theorem toList_escape (place : Place) (s : String) :
    (escape place s).toList = s.toList.flatMap (escapeChar place) := by
  simp [escape]

/-- Texts are escaped character by character. -/
theorem escape_append (place : Place) (s t : String) :
    escape place (s ++ t) = escape place s ++ escape place t := by
  apply String.toList_inj.1
  simp

end Markup

end DiagnosticReport

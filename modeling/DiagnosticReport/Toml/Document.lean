import DiagnosticReport.Toml.DateTime
import DiagnosticReport.Toml.Table
import DiagnosticReport.Toml.Text

/-!
# TOML documents

Values in arrays and inline tables, lines, and whole documents. `parse?` gives the root table of a
text, or nothing if the text is not TOML.
-/

namespace DiagnosticReport

namespace Toml

/-- The entries of an inline table, added one after the other. -/
def inlineTable? (pairs : List ((List String × String) × Value)) : Option Value := do
  let entries ← pairs.foldlM
    (fun entries ((path, key), value) => Entries.assign path key value .inline entries) []
  return .table .inline entries

/-- A key with its value, where `value` reads the value. -/
def keyAndValue (value : Reader Value) : Reader ((List String × String) × Value) := do
  let key ← dottedKey
  let _ ← Reader.exactly '='
  white
  return (key, ← value)

/-- An array; comments and ends of lines may stand between its items, and a comma behind the
last. -/
def array (value : Reader Value) : Reader Value := do
  let _ ← Reader.exactly '['
  let items ← Reader.optional do
    let items ← Reader.separated (do layout; let item ← value; layout; return item)
      (Reader.exactly ',')
    let _ ← Reader.optional (Reader.exactly ',')
    return items
  layout
  let _ ← Reader.exactly ']'
  return .array (items.getD [])

/-- A table between braces, on one line. -/
def inlineTable (value : Reader Value) : Reader Value := do
  let _ ← Reader.exactly '\x7b'
  let pairs ← Reader.optional
    (Reader.separated (do let pair ← keyAndValue value; white; return pair) (Reader.exactly ','))
  white
  let _ ← Reader.exactly '\x7d'
  match inlineTable? (pairs.getD []) with
  | some table => pure table
  | none => failure

/-- A value without brackets. -/
def scalar : Reader Value :=
  (Value.string <$> text) <|>
    ((fun _ => .boolean true) <$> Reader.literal "true") <|>
    ((fun _ => .boolean false) <$> Reader.literal "false") <|>
    dateTime <|> number

/-- A value in which no more than so many brackets are open at a time. -/
def value : Nat → Reader Value
  | 0 => scalar
  | depth + 1 => scalar <|> array (value depth) <|> inlineTable (value depth)

/-- A line with a header. -/
def headerLine : Reader Statement := do
  let statement ←
    (do
      Reader.literal "[["
      let (path, key) ← dottedKey
      Reader.literal "]]"
      return .element path key) <|>
    (do
      let _ ← Reader.exactly '['
      let (path, key) ← dottedKey
      let _ ← Reader.exactly ']'
      return .header path key)
  lineEnd
  return statement

/-- A line that sets a key. -/
def assignmentLine : Reader Statement := do
  let ((path, key), value) ← keyAndValue (value nestingLimit)
  lineEnd
  return .assignment path key value

/-- A line that says nothing. -/
def emptyLine : Reader Unit :=
  newline <|> (do comment; newline <|> Reader.atEnd)

/-- A line. -/
def line : Reader (Option Statement) := do
  let statement ← ((fun _ => none) <$> emptyLine) <|> (some <$> headerLine) <|>
    (some <$> assignmentLine)
  white
  return statement

/-- A document. -/
def document : Reader (List Statement) := do
  let _ ← Reader.optional (Reader.exactly '\ufeff')
  white
  let lines ← Reader.many line
  Reader.atEnd
  return lines.reduceOption

/-- The root table of a text. -/
def parse? (content : String) : Option Entries := do
  let (statements, _) ← document content.toList
  let tree ← Tree.ofStatements statements
  return tree.root

end Toml

end DiagnosticReport

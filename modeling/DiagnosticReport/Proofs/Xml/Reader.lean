import DiagnosticReport.Proofs.Run
import DiagnosticReport.Text.Bytes
import Mathlib.Data.List.Basic
import Mathlib.Tactic.SplitIfs

/-!
# Reading XML

How a reader that conforms to XML 1.0 reads an element: it refuses characters that are no `Char`,
takes all line ends for line breaks (`normalizeLines`), puts characters in the place of references,
and blanks in the place of white space in the values of attributes. Every tag has to be closed in
its turn and an attribute is given once. What is read is a tree (`Node`).

The reader goes from left to right with a stack of the elements that are open (`Reader.step`). It
reads what reports are made of, and the same things in other spellings: white space inside of tags,
single quotes, references by number. Declarations, comments, processing instructions and sections of
character data, which no report has, it refuses (`read?`).
-/

namespace DiagnosticReport

namespace Xml

/-! ### Characters -/

/-- A character that a document may hold (`Char`). -/
def isChar (c : Char) : Bool :=
  let n := c.toNat
  n == 0x9 || n == 0xA || n == 0xD || (0x20 ≤ n && n ≤ 0xD7FF) || (0xE000 ≤ n && n ≤ 0xFFFD) ||
    (0x10000 ≤ n && n ≤ 0x10FFFF)

/-- White space (`S`). -/
def isSpace (c : Char) : Bool :=
  c == ' ' || c == '\t' || c == '\r' || c == '\n'

/-- A character that a name may start with (`NameStartChar`). -/
def isNameStart (c : Char) : Bool :=
  let n := c.toNat
  c == ':' || c == '_' || c.isAlpha || (0xC0 ≤ n && n ≤ 0xD6) || (0xD8 ≤ n && n ≤ 0xF6) ||
    (0xF8 ≤ n && n ≤ 0x2FF) || (0x370 ≤ n && n ≤ 0x37D) || (0x37F ≤ n && n ≤ 0x1FFF) ||
    (0x200C ≤ n && n ≤ 0x200D) || (0x2070 ≤ n && n ≤ 0x218F) || (0x2C00 ≤ n && n ≤ 0x2FEF) ||
    (0x3001 ≤ n && n ≤ 0xD7FF) || (0xF900 ≤ n && n ≤ 0xFDCF) || (0xFDF0 ≤ n && n ≤ 0xFFFD) ||
    (0x10000 ≤ n && n ≤ 0xEFFFF)

/-- A character that a name may go on with (`NameChar`). -/
def isNamePart (c : Char) : Bool :=
  let n := c.toNat
  isNameStart c || c == '-' || c == '.' || c.isDigit || n == 0xB7 || (0x300 ≤ n && n ≤ 0x36F) ||
    (0x203F ≤ n && n ≤ 0x2040)

/-- A text in which every line ends with a line break. -/
def normalizeLines : List Char → List Char
  | '\r' :: '\n' :: cs => '\n' :: normalizeLines cs
  | '\r' :: cs => '\n' :: normalizeLines cs
  | c :: cs => c :: normalizeLines cs
  | [] => []

/-- What a character in the value of an attribute is read as. -/
def normalizeSpace (c : Char) : Char :=
  if isSpace c then ' ' else c

/-! ### References -/

/-- The number that digits stand for. -/
def number? (base : Nat) (digits : List Char) : Option Nat :=
  if digits = [] then none
  else digits.foldlM (fun n c => (digit? c).map (base * n + ·)) 0
where
  /-- The number that a digit stands for. -/
  digit? (c : Char) : Option Nat :=
    if c.isDigit then some (c.toNat - '0'.toNat)
    else if base = 16 ∧ 'a' ≤ c ∧ c ≤ 'f' then some (c.toNat - 'a'.toNat + 10)
    else if base = 16 ∧ 'A' ≤ c ∧ c ≤ 'F' then some (c.toNat - 'A'.toNat + 10)
    else none

/-- The character with a number, if it is one that a document may hold. -/
def charOf? (n : Nat) : Option Char :=
  if n.isValidChar ∧ isChar (Char.ofNat n) then some (Char.ofNat n) else none

/-- What a reference stands for: one of the five predefined entities, or a character by its
number. -/
def reference? : List Char → Option Char
  | ['a', 'm', 'p'] => some '&'
  | ['l', 't'] => some '<'
  | ['g', 't'] => some '>'
  | ['q', 'u', 'o', 't'] => some '"'
  | ['a', 'p', 'o', 's'] => some '\''
  | '#' :: 'x' :: digits => (number? 16 digits).bind charOf?
  | '#' :: digits => (number? 10 digits).bind charOf?
  | _ => none

/-! ### Trees -/

/-- What a document is read as. -/
inductive Node where
  /-- A text. -/
  | text (content : String)
  /-- An element with its attributes and what it holds. -/
  | element (name : String) (attributes : List (String × String)) (children : List Node)

namespace Node

/-- The name of an element. -/
def name? : Node → Option String
  | .text _ => none
  | .element name _ _ => some name

/-- The value of an attribute. -/
def attribute? (n : Node) (key : String) : Option String :=
  match n with
  | .text _ => none
  | .element _ attributes _ => attributes.lookup key

/-- What an element holds. -/
def children : Node → List Node
  | .text _ => []
  | .element _ _ children => children

/-- The elements with a name that an element holds. -/
def elements (n : Node) (name : String) : List Node :=
  n.children.filter fun child => child.name? == some name

/-- The text that an element holds, apart from that of the elements in it. -/
def content (n : Node) : String :=
  String.join (n.children.map fun child => match child with | .text s => s | .element .. => "")

end Node

/-! ### The reader -/

/-- An opening tag, as far as it has been read. -/
structure Head where
  /-- The name of the element. -/
  name : String
  /-- The attributes. -/
  attributes : List (String × String) := []

/-- A value of an attribute, as far as it has been read. -/
structure Value where
  /-- The tag in front of the attribute. -/
  head : Head
  /-- The name of the attribute. -/
  key : String
  /-- The quote that ends the value. -/
  quote : Char
  /-- What has been read of it. -/
  text : String := ""

/-- The tag with the attribute whose value has been read. -/
def Value.closed (v : Value) : Head :=
  { v.head with attributes := v.head.attributes ++ [(v.key, v.text)] }

/-- An element whose opening tag has been read. -/
structure OpenElement where
  /-- The tag. -/
  head : Head
  /-- What has been read of what it holds, the last first. -/
  content : List Node := []

/-- A character joins a text in front of it. -/
def addChar (c : Char) : List Node → List Node
  | .text s :: nodes => .text (s.push c) :: nodes
  | nodes => .text (String.singleton c) :: nodes

/-- What is being read. -/
inductive Mode where
  /-- Text, or the next tag; the last characters of the text, up to two, are closing square
  brackets. -/
  | content (brackets : Nat)
  /-- The first character behind an opening bracket. -/
  | bracket
  /-- The name in an opening tag. -/
  | opening (name : List Char)
  /-- White space in an opening tag. -/
  | blank (head : Head)
  /-- The name of an attribute. -/
  | key (head : Head) (key : List Char)
  /-- White space behind the name of an attribute. -/
  | behindKey (head : Head) (key : String)
  /-- The quote in front of a value. -/
  | equals (head : Head) (key : String)
  /-- A value. -/
  | value (v : Value)
  /-- What follows the quote behind a value. -/
  | quoted (head : Head)
  /-- The bracket that ends a tag that closes itself. -/
  | slash (head : Head)
  /-- The name in a closing tag. -/
  | closing (name : List Char)
  /-- White space in a closing tag. -/
  | behindName (name : List Char)
  /-- A reference, in a value or else in a text. -/
  | reference (value? : Option Value) (name : List Char)
  /-- White space behind the outermost element, which is this. -/
  | ended (root : Node)

/-- A reader between two characters. -/
structure Reader where
  /-- What is being read. -/
  mode : Mode := .content 0
  /-- The elements that are open, the innermost first. -/
  stack : List OpenElement := []

namespace Reader

/-- An element is complete: the innermost open element holds it, or it is the outermost one. -/
def complete (node : Node) : List OpenElement → Reader
  | [] => { mode := .ended node }
  | o :: stack => { stack := { o with content := node :: o.content } :: stack }

/-- A character of a text; outside of all elements there is white space only. -/
def readText (brackets : Nat) (c : Char) : List OpenElement → Option Reader
  | [] => if isSpace c then some {} else none
  | o :: stack =>
    some {
      mode := .content (if c = ']' then min 2 (brackets + 1) else 0)
      stack := { o with content := addChar c o.content } :: stack }

/-- What follows the name or a value in an opening tag. -/
def readBehind (head : Head) (stack : List OpenElement) (c : Char) : Option Reader :=
  if isSpace c then some { mode := .blank head, stack }
  else if c = '/' then some { mode := .slash head, stack }
  else if c = '>' then some { stack := { head } :: stack }
  else none

/-- A closing tag closes the innermost open element, if that has its name. -/
def close (name : List Char) : List OpenElement → Option Reader
  | [] => none
  | o :: stack =>
    if o.head.name = String.ofList name then
      some (complete (.element o.head.name o.head.attributes o.content.reverse) stack)
    else none

/-- The character that a reference stands for, in a value or in a text. -/
def insert (c : Char) : Option Value → List OpenElement → Option Reader
  | some v, stack => some { mode := .value { v with text := v.text.push c }, stack }
  | none, [] => none
  | none, o :: stack => some { stack := { o with content := addChar c o.content } :: stack }

/-- Reads a character, if it can stand here. -/
def step (s : Reader) (c : Char) : Option Reader :=
  match s.mode with
  | .content brackets =>
    if c = '<' then some { s with mode := .bracket }
    else if c = '&' then some { s with mode := .reference none [] }
    else if c = '>' ∧ brackets = 2 then none
    else readText brackets c s.stack
  | .bracket =>
    if c = '/' then some { s with mode := .closing [] }
    else if isNameStart c then some { s with mode := .opening [c] }
    else none
  | .opening name =>
    if isNamePart c then some { s with mode := .opening (name ++ [c]) }
    else readBehind { name := String.ofList name } s.stack c
  | .blank head =>
    if isNameStart c then some { s with mode := .key head [c] } else readBehind head s.stack c
  | .key head key =>
    if isNamePart c then some { s with mode := .key head (key ++ [c]) }
    else if c = '=' then some { s with mode := .equals head (String.ofList key) }
    else if isSpace c then some { s with mode := .behindKey head (String.ofList key) }
    else none
  | .behindKey head key =>
    if c = '=' then some { s with mode := .equals head key } else if isSpace c then some s else none
  | .equals head key =>
    if isSpace c then some s
    else if (c = '"' ∨ c = '\'') ∧ key ∉ head.attributes.map Prod.fst then
      some { s with mode := .value { head, key, quote := c } }
    else none
  | .value v =>
    if c = v.quote then some { s with mode := .quoted v.closed }
    else if c = '<' then none
    else if c = '&' then some { s with mode := .reference (some v) [] }
    else some { s with mode := .value { v with text := v.text.push (normalizeSpace c) } }
  | .quoted head => readBehind head s.stack c
  | .slash head =>
    if c = '>' then some (complete (.element head.name head.attributes []) s.stack) else none
  | .closing name =>
    if isNamePart c ∧ (name = [] → isNameStart c) then
      some { s with mode := .closing (name ++ [c]) }
    else if c = '>' then close name s.stack
    else if isSpace c ∧ name ≠ [] then some { s with mode := .behindName name }
    else none
  | .behindName name =>
    if c = '>' then close name s.stack else if isSpace c then some s else none
  | .reference value? name =>
    if c = ';' then (reference? name).bind fun d => insert d value? s.stack
    else some { s with mode := .reference value? (name ++ [c]) }
  | .ended _ => if isSpace c then some s else none

end Reader

/-- What a text is read as, if it is an element and nothing else but white space. -/
def readChars? (text : List Char) : Option Node :=
  if text.all isChar then
    match Run.final? Reader.step {} (normalizeLines text) with
    | some { mode := .ended root, .. } => some root
    | _ => none
  else none

/-- What a document is read as: one element, in UTF-8. -/
def read? (bytes : List UInt8) : Option Node :=
  (Text.ofUtf8? bytes.toByteArray).bind fun text => readChars? text.toList

example :
    let read := readChars? "<a x='&#x9;\t' ><b/>1 &lt; &#50;\r</a>\n".toList
    read.bind (·.attribute? "x") = some "\t " ∧ read.map (·.content) = some "1 < 2\n" ∧
      (read.map (·.elements "b")).map List.length = some 1 := by
  decide +kernel

example : ["<a></b>", "<a", "<a/><b/>", "<a x=\"1\" x=\"2\"/>", "<a>&lt</a>", "<a>]]></a>",
    "<a>\x00</a>"].all fun text => (readChars? text.toList).isNone := by
  decide +kernel

end Xml

end DiagnosticReport

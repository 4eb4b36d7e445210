import DiagnosticReport.Json.Value

/-!
# Writing JSON

Two spellings of a value: `compact` has no blank between tokens, `pretty` puts every item and
every field on a line of its own and indents by two blanks a level. Inside a string only the
quote, the backslash and the control characters below U+0020 are escaped.
-/

namespace DiagnosticReport

namespace Json

/-- The lower-case hexadecimal digit of a number below 16. -/
def hexDigit (n : Nat) : Char :=
  if n < 10 then Char.ofNat (0x30 + n) else Char.ofNat (0x57 + n)

/-- How one character is written inside a string. -/
def quoteChar (c : Char) : List Char :=
  if c = '"' then ['\\', '"']
  else if c = '\\' then ['\\', '\\']
  else if c = '\x08' then ['\\', 'b']
  else if c = '\x0c' then ['\\', 'f']
  else if c = '\n' then ['\\', 'n']
  else if c = '\x0d' then ['\\', 'r']
  else if c = '\t' then ['\\', 't']
  else if c.toNat < 0x20 then
    ['\\', 'u', '0', '0', hexDigit (c.toNat / 16), hexDigit (c.toNat % 16)]
  else [c]

/-- A string in quotes. -/
def quote (s : String) : String :=
  "\"" ++ String.ofList (s.toList.flatMap quoteChar) ++ "\""

mutual

/-- The shortest spelling of a value. -/
def compact : Json → String
  | .null => "null"
  | .number n => n.repr
  | .string s => quote s
  | .array items => "[" ++ ",".intercalate (compactItems items) ++ "]"
  | .object fields => "\x7b" ++ ",".intercalate (compactFields fields) ++ "\x7d"

/-- The shortest spellings of the items of an array. -/
def compactItems : List Json → List String
  | [] => []
  | item :: items => compact item :: compactItems items

/-- The shortest spellings of the fields of an object. -/
def compactFields : List (String × Json) → List String
  | [] => []
  | (key, value) :: fields => (quote key ++ ":" ++ compact value) :: compactFields fields

end

/-- The blanks before a line at a level of nesting. -/
def indentation (level : Nat) : String :=
  String.ofList (List.replicate (2 * level) ' ')

/-- Entries on lines of their own between two brackets; without entries the brackets touch. -/
def block (opening closing : String) (level : Nat) (entries : List String) : String :=
  match entries with
  | [] => opening ++ closing
  | entries =>
    opening ++ "\n" ++ ",\n".intercalate (entries.map (indentation (level + 1) ++ ·)) ++ "\n" ++
      indentation level ++ closing

mutual

/-- The spelling on many lines of a value that stands at a level of nesting. -/
def prettyAt (level : Nat) : Json → String
  | .null => "null"
  | .number n => n.repr
  | .string s => quote s
  | .array items => block "[" "]" level (prettyItems (level + 1) items)
  | .object fields => block "\x7b" "\x7d" level (prettyFields (level + 1) fields)

/-- The spellings of the items of an array. -/
def prettyItems (level : Nat) : List Json → List String
  | [] => []
  | item :: items => prettyAt level item :: prettyItems level items

/-- The spellings of the fields of an object. -/
def prettyFields (level : Nat) : List (String × Json) → List String
  | [] => []
  | (key, value) :: fields =>
    (quote key ++ ": " ++ prettyAt level value) :: prettyFields level fields

end

/-- The spelling of a value on many lines. -/
def pretty (value : Json) : String :=
  prettyAt 0 value

end Json

end DiagnosticReport

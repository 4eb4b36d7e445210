import DiagnosticReport.Toml.Number

/-!
# Texts and keys in TOML

A text stands between quotes, on one line or, between three quotes each, on several. Between double
quotes a backslash escapes; between single quotes every character stands for itself. A text on
several lines may hold one or two quotes anywhere, also just before the three that close it. A key
is a bare word or a text on one line.
-/

namespace DiagnosticReport

namespace Toml

/-- The characters of a text between double quotes that stand for themselves. -/
def isBasicChar (c : Char) : Bool :=
  isCommentChar c && c != '"' && c != '\\'

/-- The characters of a text between single quotes. -/
def isLiteralChar (c : Char) : Bool :=
  isCommentChar c && c != '\''

/-- The character with a code point, if there is one. -/
def charOfCode? (n : Nat) : Option Char :=
  if n.isValidChar then some (Char.ofNat n) else none

/-- The character given by just so many hexadecimal digits. -/
def codePoint (count : Nat) : Reader Char := do
  let hex ← hexDigits count
  match charOfCode? (ofDigits 16 hex) with
  | some c => pure c
  | none => failure
where
  /-- Just so many hexadecimal digits. -/
  hexDigits : Nat → Reader (List Char)
    | 0 => pure []
    | n + 1 => do return (← digit 16) :: (← hexDigits n)

/-- What an escaped letter or sign stands for. -/
def escapes : List (Char × Char) :=
  [('b', '\x08'), ('f', '\x0c'), ('n', '\n'), ('r', '\x0d'), ('t', '\t'), ('\\', '\\'), ('"', '"')]

/-- A backslash with what it escapes. -/
def escaped : Reader Char := do
  let _ ← Reader.exactly '\\'
  match ← Reader.char fun _ => true with
  | 'u' => codePoint 4
  | 'U' => codePoint 8
  | c =>
    match escapes.lookup c with
    | some meant => pure meant
    | none => failure

/-- A text on one line between double quotes. -/
def basicText : Reader String := do
  let _ ← Reader.exactly '"'
  let pieces ← Reader.many (Reader.span1 isBasicChar <|> ((fun c => [c]) <$> escaped))
  let _ ← Reader.exactly '"'
  return String.ofList pieces.flatten

/-- A text on one line between single quotes. -/
def literalText : Reader String := do
  let _ ← Reader.exactly '\''
  let cs ← Reader.span isLiteralChar
  let _ ← Reader.exactly '\''
  return String.ofList cs

/-- One or two quotes inside a text on several lines. -/
def fewQuotes (quote : Char) : Reader (List Char) := do
  let quotes ← Reader.span1 (· == quote)
  guard (quotes.length ≤ 2)
  return quotes

/-- The quotes that close a text on several lines: the last three of them, and up to two before
those that belong to the text. -/
def closingQuotes (quote : Char) : Reader (List Char) := fun text =>
  let quotes := (text.take 5).takeWhile (· == quote)
  if 3 ≤ quotes.length then some (quotes.drop 3, text.drop quotes.length) else none

/-- A line feed inside a text on several lines, whatever its spelling. -/
def innerNewline : Reader (List Char) := do
  newline
  return ['\n']

/-- A backslash at the end of a line joins the line with the next one that is not blank. -/
def joinedLines : Reader (List Char) := do
  let _ ← Reader.exactly '\\'
  white
  newline
  let _ ← Reader.many (((fun _ => ()) <$> Reader.char isWhite) <|> newline)
  return []

/-- A text on several lines, from pieces between three quotes on each side. A line feed at its
start does not belong to it. -/
def textOnLines (quote : Char) (piece : Reader (List Char)) : Reader String := do
  Reader.literal (String.ofList [quote, quote, quote])
  let _ ← Reader.optional newline
  let pieces ← Reader.many (piece <|> innerNewline <|> fewQuotes quote)
  let extra ← closingQuotes quote
  return String.ofList (pieces.flatten ++ extra)

/-- A text. -/
def text : Reader String :=
  textOnLines '"' (Reader.span1 isBasicChar <|> joinedLines <|> ((fun c => [c]) <$> escaped)) <|>
    basicText <|> textOnLines '\'' (Reader.span1 isLiteralChar) <|> literalText

/-- The characters of a bare key. -/
def isBareChar (c : Char) : Bool :=
  c.isAlphanum || c == '_' || c == '-'

/-- A key without dots. -/
def simpleKey : Reader String :=
  basicText <|> literalText <|> (String.ofList <$> Reader.span1 isBareChar)

/-- The greatest number of parts of a dotted key, and of brackets inside one another. -/
def nestingLimit : Nat := 79

/-- A key, possibly dotted: the front parts and the last. -/
def dottedKey : Reader (List String × String) := do
  let parts ← Reader.separated (do white; let part ← simpleKey; white; return part)
    (Reader.exactly '.')
  guard (parts.length ≤ nestingLimit)
  match parts.getLast? with
  | some last => return (parts.dropLast, last)
  | none => failure

end Toml

end DiagnosticReport

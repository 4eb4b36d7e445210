/-!
# Readers

A reader takes a value off the front of a text and leaves the rest, or does not apply. Readers are
put in sequence and tried one after the other; one that does not apply takes nothing.
-/

namespace DiagnosticReport

namespace Toml

/-- A reader of values of type `α`. -/
abbrev Reader (α : Type) := StateT (List Char) Option α

namespace Reader

/-- Takes a character of a class. -/
def char (accepts : Char → Bool) : Reader Char := fun text =>
  match text with
  | c :: rest => if accepts c then some (c, rest) else none
  | [] => none

/-- Takes just this character. -/
def exactly (c : Char) : Reader Char :=
  char (· == c)

/-- Takes just these characters. -/
def literal (word : String) : Reader Unit := fun text =>
  if word.toList.isPrefixOf text then some ((), text.drop word.length) else none

/-- Takes all characters of a class up to the first that is not of it. -/
def span (accepts : Char → Bool) : Reader (List Char) := fun text =>
  some (text.span accepts)

/-- Takes all characters of a class up to the first that is not of it, and at least one. -/
def span1 (accepts : Char → Bool) : Reader (List Char) := do
  return (← char accepts) :: (← span accepts)

/-- Applies at the end of the text only. -/
def atEnd : Reader Unit := fun text =>
  if text.isEmpty then some ((), text) else none

/-- Takes a value if there is one. -/
def optional {α : Type} (read : Reader α) : Reader (Option α) :=
  (some <$> read) <|> pure none

/-- Takes as many values as there are, but no more than `limit`. -/
def upTo {α : Type} (read : Reader α) : Nat → Reader (List α)
  | 0 => pure []
  | limit + 1 => do
    match ← optional read with
    | none => pure []
    | some a => return a :: (← upTo read limit)

/-- Takes as many values as there are. Each takes at least one character, so that there are no
more of them than characters. -/
def many {α : Type} (read : Reader α) : Reader (List α) := fun text =>
  upTo read text.length text

/-- Takes one value or more, with separators between them. -/
def separated {α β : Type} (read : Reader α) (separator : Reader β) : Reader (List α) := do
  let first ← read
  let others ← many (separator *> read)
  return first :: others

/-- The characters that a reader takes. -/
def lexeme {α : Type} (read : Reader α) : Reader String := fun text =>
  match read text with
  | some (_, rest) => some (String.ofList (text.take (text.length - rest.length)), rest)
  | none => none

/-- Runs a reader of natural numbers and requires a condition of the number. -/
def satisfying (read : Reader Nat) (condition : Nat → Bool) : Reader Nat := do
  let n ← read
  guard (condition n)
  return n

end Reader

/-! ### Layout -/

/-- A blank within a line. -/
def isWhite (c : Char) : Bool :=
  c == ' ' || c == '\t'

/-- Blanks within a line, possibly none. -/
def white : Reader Unit :=
  (fun _ => ()) <$> Reader.span isWhite

/-- The end of a line: a line feed, possibly behind a carriage return. -/
def newline : Reader Unit :=
  Reader.literal "\n" <|> Reader.literal "\x0d\n"

/-- The characters outside ASCII, which texts and comments may hold all. -/
def isBeyondAscii (c : Char) : Bool :=
  0x80 ≤ c.toNat

/-- The characters of a comment: all but control characters, of which the tab is allowed. -/
def isCommentChar (c : Char) : Bool :=
  c == '\t' || (0x20 ≤ c.toNat && c.toNat ≤ 0x7E) || isBeyondAscii c

/-- A comment, which ends with its line. -/
def comment : Reader Unit := do
  let _ ← Reader.exactly '#'
  let _ ← Reader.span isCommentChar

/-- What may stand behind a value or a header on its line. -/
def lineEnd : Reader Unit := do
  white
  let _ ← Reader.optional comment
  newline <|> Reader.atEnd

/-- Blanks, ends of lines and comments, as they may stand between the items of an array. -/
def layout : Reader Unit := do
  let _ ← Reader.many (((fun _ => ()) <$> Reader.span1 isWhite) <|> newline <|> comment)

end Toml

end DiagnosticReport

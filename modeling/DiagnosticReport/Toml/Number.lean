import DiagnosticReport.Toml.Reader
import DiagnosticReport.Toml.Value

/-!
# Numbers in TOML

Integers are written in decimal with an optional sign, or without a sign in hexadecimal, octal or
binary, and have to fit into 64 bits. A single underscore may stand between two digits. A float
has a fraction or an exponent, or is one of the words `inf` and `nan`; one that lies beyond the
largest double is refused if it is positive.
-/

namespace DiagnosticReport

namespace Toml

/-- The value of a digit in a base of at most 16, if the character is one. -/
def digitValue? (base : Nat) (c : Char) : Option Nat :=
  let value :=
    if c.isDigit then some (c.toNat - 0x30)
    else if 'a' ≤ c ∧ c ≤ 'f' then some (c.toNat - 0x57)
    else if 'A' ≤ c ∧ c ≤ 'F' then some (c.toNat - 0x37)
    else none
  value.filter (· < base)

/-- The number with these digits. -/
def ofDigits (base : Nat) (digits : List Char) : Nat :=
  digits.foldl (fun n c => n * base + (digitValue? base c).getD 0) 0

/-- A digit. -/
def digit (base : Nat) : Reader Char :=
  Reader.char fun c => (digitValue? base c).isSome

/-- Digits, with underscores between them; the underscores are left out. -/
def digits (base : Nat) : Reader (List Char) := do
  let first ← digit base
  let others ← Reader.many (digit base <|> (Reader.exactly '_' *> digit base))
  return first :: others

/-- A sign: whether it is a minus. -/
def sign : Reader Bool := do
  return (← Reader.char fun c => c == '+' || c == '-') == '-'

/-- An optional sign: whether it is a minus. -/
def optionalSign : Reader Bool := do
  return (← Reader.optional sign).getD false

/-- The whole part of a decimal number: no digits follow a leading zero. -/
def wholePart : Reader (List Char) :=
  (do let zero ← Reader.exactly '0'; return [zero]) <|> digits 10

/-- The integers that fit into 64 bits. -/
def fitsInt64 (n : Int) : Bool :=
  -0x8000000000000000 ≤ n && n ≤ 0x7FFFFFFFFFFFFFFF

/-- An integer in decimal. -/
def decimalInteger : Reader Int := do
  let negative ← optionalSign
  let magnitude : Int := ofDigits 10 (← wholePart)
  let n := if negative then -magnitude else magnitude
  guard (fitsInt64 n)
  return n

/-- An integer in another base, behind the mark of that base. -/
def basedInteger (mark : String) (base : Nat) : Reader Int := do
  Reader.literal mark
  let n : Int := ofDigits base (← digits base)
  guard (fitsInt64 n)
  return n

/-- An integer. -/
def integer : Reader Int :=
  basedInteger "0x" 16 <|> basedInteger "0o" 8 <|> basedInteger "0b" 2 <|> decimalInteger

/-- The digits behind the point. -/
def fraction : Reader (List Char) :=
  Reader.exactly '.' *> digits 10

/-- The exponent. -/
def exponent : Reader Int := do
  let _ ← Reader.char fun c => c == 'e' || c == 'E'
  let negative ← optionalSign
  let magnitude : Int := ofDigits 10 (← digits 10)
  return if negative then -magnitude else magnitude

/-- Whether the number `m * 10 ^ e` is too large for a double: it rounds to no less than
`2 ^ 1024`. Far from that bound the count of digits decides. -/
def overflowsDouble (m : Nat) (e : Int) : Bool :=
  let magnitude : Int := (Nat.toDigits 10 m).length + e
  if m = 0 || magnitude < 300 then false
  else if 320 < magnitude then true
  else
    let bound := Nat.pow 2 1024 - Nat.pow 2 970
    if 0 ≤ e then bound ≤ m * Nat.pow 10 e.toNat else bound * Nat.pow 10 (-e).toNat ≤ m

/-- A float with digits. -/
def decimalFloat : Reader Unit := do
  let negative ← optionalSign
  let whole ← wholePart
  let (behind, e) ←
    (do return ([], ← exponent)) <|>
      (do
        let behind ← fraction
        return (behind, (← Reader.optional exponent).getD 0))
  guard (negative || !overflowsDouble (ofDigits 10 (whole ++ behind)) (e - behind.length))

/-- A float that is a word. -/
def specialFloat : Reader Unit := do
  let _ ← optionalSign
  Reader.literal "inf" <|> Reader.literal "nan"

/-- A number. -/
def number : Reader Value :=
  (Value.float <$> Reader.lexeme (decimalFloat <|> specialFloat)) <|> (Value.integer <$> integer)

end Toml

end DiagnosticReport

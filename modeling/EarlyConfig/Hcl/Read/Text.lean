import EarlyConfig.Hcl.Read.Trivia
import EarlyConfig.Number.Basic

/-! Numbers and quoted text. In quoted text a backslash introduces an escape, a doubled mark before
a brace stands for the mark itself, and a single mark before a brace opens a template sequence. -/
namespace EarlyConfig.Hcl.Read

/-! ### Numbers -/

def digits : Reader (List Char) :=
  charsWhile1 Char.isDigit

def exponentMark : Reader Unit := do
  let _ ← charIf fun c => c = 'e' || c = 'E'

def exponent : Reader Int := do
  exponentMark
  let sign ← opt (charIf fun c => c = '+' || c = '-')
  let n := Decimal.natOfDigits (← digits)
  return if sign = some '-' then -(n : Int) else n

/-- A number without a sign. A point counts only with a digit after it; a mark for an exponent must
have one. -/
def number : Reader Number := do
  let whole ← digits
  let fraction ← opt (char '.' *> digits)
  let power ← opt exponent
  notAhead exponentMark
  match Number.ofLiteral? whole (fraction.getD []) power with
  | some n => return n
  | none => failure

/-! ### Quoted text -/

def isHexDigit (c : Char) : Bool :=
  c.isDigit || ('a' ≤ c && c ≤ 'f') || ('A' ≤ c && c ≤ 'F')

def hexValue (c : Char) : Nat :=
  if c.isDigit then c.toNat - '0'.toNat else c.toLower.toNat - 'a'.toNat + 10

/-- A character by its code point in so many hexadecimal digits. -/
def codePoint (width : Nat) : Reader Char := do
  let n := (← exactly (charIf isHexDigit) width).foldl (fun n c => 16 * n + hexValue c) 0
  if n.isValidChar then return Char.ofNat n else failure

def escaped : Reader Char := do
  char '\\'
  match ← anyChar with
  | 'n' => return '\n'
  | 'r' => return '\r'
  | 't' => return '\t'
  | '\\' => return '\\'
  | '"' => return '"'
  | '/' => return '/'
  | 'b' => return '\x08'
  | 'f' => return '\x0c'
  | 'u' => codePoint 4
  | 'U' => codePoint 8
  | _ => failure

/-- The mark that opens a template sequence. -/
def sequenceMark : Reader Unit := do
  let _ ← charIf fun c => c = '$' || c = '%'
  char '{'

/-- A doubled mark before a brace, which stands for a single one. -/
def doubledMark : Reader (List Char) :=
  word "$$\x7b" *> pure ['$', '{'] <|> word "%%\x7b" *> pure ['%', '{']

def quotedPiece : Reader (List Char) :=
  doubledMark <|>
  (notAhead sequenceMark *> List.singleton <$> charIf fun c => c ≠ '"' && c ≠ '\\') <|>
  List.singleton <$> escaped

/-- The text between quotes or sequences; at least one character. -/
def quotedText : Reader String := do
  return String.ofList (← many1 quotedPiece).flatten

/-- A quoted string without sequences. -/
def quotedString : Reader String := do
  char '"'
  let s ← opt quotedText
  char '"'
  return s.getD ""

end EarlyConfig.Hcl.Read

import EarlyConfig.Number.Binary64

/-! Decimal numbers: reading them, rounding them to binary, and laying them out as text. -/
namespace EarlyConfig

/-- `digits * 10 ^ exponent`. -/
structure Decimal where
  digits : Nat
  exponent : Int
deriving DecidableEq, Repr

namespace Decimal

def value (d : Decimal) : Rat :=
  d.digits * (10 : Rat) ^ d.exponent

/-- The nearest binary number. Numbers with a first digit far outside the binary range are decided
by its place alone. -/
def round (d : Decimal) : Option Dyadic :=
  let place := (Nat.toDigits 10 d.digits).length + d.exponent
  if d.digits = 0 ∨ place < -330 then some 0
  else if 330 < place then none
  else Binary64.round d.value

/-! ### Reading -/

/-- The number that a run of decimal digits spells. -/
def natOfDigits (cs : List Char) : Nat :=
  Nat.ofDigitChars 10 cs 0

/-- A text without its sign, and whether that was a minus. -/
def splitSign : List Char → Bool × List Char
  | '-' :: cs => (true, cs)
  | '+' :: cs => (false, cs)
  | cs => (false, cs)

/-- The exponent at the end of a number: nothing, or a mark, an optional sign and digits. -/
def exponent? : List Char → Option Int
  | [] => some 0
  | c :: rest =>
    let (negative, digits) := splitSign rest
    if (c = 'e' || c = 'E') && !digits.isEmpty && digits.all Char.isDigit then
      some (if negative then -(natOfDigits digits : Int) else natOfDigits digits)
    else none

/-- An unsigned number with an optional point and exponent; a digit on one side of the point is
enough. -/
def ofText? (cs : List Char) : Option Decimal :=
  let whole := cs.takeWhile Char.isDigit
  let rest := cs.dropWhile Char.isDigit
  let fraction := match rest with
    | '.' :: r => r.takeWhile Char.isDigit
    | _ => []
  let rest := match rest with
    | '.' :: r => r.dropWhile Char.isDigit
    | r => r
  if whole.isEmpty && fraction.isEmpty then none
  else (exponent? rest).map fun e => ⟨natOfDigits (whole ++ fraction), e - fraction.length⟩

/-! ### Writing -/

def natText (n : Nat) : String :=
  String.ofList (Nat.toDigits 10 n)

/-- Where positional notation ends, and how the exponent is written after that. -/
structure Layout where
  /-- The point stands at most this many places after the first digit. -/
  longest : Int
  /-- A number below one has fewer leading zeros than this after the point. -/
  leading : Int
  /-- A positive exponent has a sign. -/
  plus : Bool

/-- The digits without the zeros at their end, and how many those are. -/
def significant (d : Decimal) : List Char × Nat :=
  let all := Nat.toDigits 10 d.digits
  let kept := (all.reverse.dropWhile (· = '0')).reverse
  (kept, all.length - kept.length)

def exponentText (layout : Layout) (e : Int) : List Char :=
  let sign := if e < 0 then ['-'] else if layout.plus then ['+'] else []
  'e' :: (sign ++ Nat.toDigits 10 e.natAbs)

/-- A positive number as text. -/
def render (layout : Layout) (d : Decimal) : List Char :=
  let (digits, dropped) := d.significant
  let tail := d.exponent + dropped
  let point := tail + digits.length
  if 0 ≤ tail ∧ point ≤ layout.longest then
    digits ++ List.replicate tail.toNat '0' ++ ['.', '0']
  else if 0 < point ∧ point ≤ layout.longest then
    digits.take point.toNat ++ '.' :: digits.drop point.toNat
  else if -layout.leading < point ∧ point ≤ 0 then
    ['0', '.'] ++ List.replicate (-point).toNat '0' ++ digits
  else
    match digits with
    | [] => ['0']
    | [c] => c :: exponentText layout (point - 1)
    | c :: cs => c :: '.' :: (cs ++ exponentText layout (point - 1))

end Decimal

end EarlyConfig

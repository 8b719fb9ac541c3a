import EarlyConfig.Number.Shortest
import EarlyConfig.Text.Blank

/-! Numbers of the configuration language: integers of 64 bits, signed or unsigned, and binary
floating point numbers for everything else. Reading and arithmetic turn a floating point number that
is such an integer into one. -/
namespace EarlyConfig

inductive Number where
  | int (n : Int)
  | real (x : Dyadic)
deriving DecidableEq

namespace Number

/-- The first integer that does not fit into 64 bits. -/
def wordBound : Nat := 0x10000000000000000

/-- The first integer that does not fit into 64 bits with a sign. -/
def signedBound : Int := 0x8000000000000000

/-- The integers kept exactly. -/
def isExact (n : Int) : Bool :=
  -signedBound ≤ n && n < wordBound

def ofDyadic (x : Dyadic) : Number :=
  let q := x.toRat
  if q.den = 1 ∧ isExact q.num then .int q.num else .real x

/-- The number nearest to a rational, if there is one. -/
def ofRat? (q : Rat) : Option Number :=
  (Binary64.round q).map ofDyadic

def ofInt? (n : Int) : Option Number :=
  if isExact n then some (.int n) else none

/-- The floating point value, rounded if need be. -/
def toReal : Number → Rat
  | .int n => ((Binary64.round n).getD 0).toRat
  | .real x => x.toRat

/-! ### Arithmetic -/

/-- Two integers that are both negative or both not. -/
def alikeInts : Number → Number → Option (Int × Int)
  | .int a, .int b => if (a < 0) = (b < 0) then some (a, b) else none
  | _, _ => none

/-- Integers of one sign compute exactly and fail outside their range; all other pairs compute in
floating point. -/
def combine (exact : Int → Int → Option Int) (rounded : Rat → Rat → Option Rat) (a b : Number) :
    Option Number :=
  match alikeInts a b with
  | some (m, n) => (exact m n).bind ofInt?
  | none => (rounded a.toReal b.toReal).bind ofRat?

def add : Number → Number → Option Number :=
  combine (fun a b => some (a + b)) (fun a b => some (a + b))

def sub : Number → Number → Option Number :=
  combine (fun a b => some (a - b)) (fun a b => some (a - b))

def mul : Number → Number → Option Number :=
  combine (fun a b => some (a * b)) (fun a b => some (a * b))

/-- Division always rounds. -/
def div (a b : Number) : Option Number :=
  if b.toReal = 0 then none else ofRat? (a.toReal / b.toReal)

/-- The integer part, dropping the fraction on either side of zero. -/
def truncate (q : Rat) : Int :=
  if q < 0 then -(-q).floor else q.floor

/-- The remainder has the sign of the dividend. -/
def mod : Number → Number → Option Number :=
  combine (fun a b => if b = 0 then none else some (a.tmod b))
    (fun a b => if b = 0 then none else some (a - b * truncate (a / b)))

/-- The negative of a number. An integer whose negative has more than 63 bits becomes a floating
point number and stays one. -/
def neg : Number → Number
  | .int n => if n < signedBound then .int (-n) else .real (-((Binary64.round n).getD 0))
  | .real x => .real (-x)

/-- Equality of values. An integer and a floating point number compare as the latter, so that a
large integer equals what it rounds to. -/
def same (a b : Number) : Bool :=
  match alikeInts a b with
  | some (m, n) => m = n
  | none => a.toReal = b.toReal

def lt (a b : Number) : Bool :=
  match alikeInts a b with
  | some (m, n) => m < n
  | none => a.toReal < b.toReal

def le (a b : Number) : Bool :=
  match alikeInts a b with
  | some (m, n) => m ≤ n
  | none => a.toReal ≤ b.toReal

/-! ### Text -/

/-- Positional up to sixteen places and down to four zeros after the point. -/
def layout : Decimal.Layout :=
  ⟨16, 5, false⟩

def intText (n : Int) : List Char :=
  if n < 0 then '-' :: Nat.toDigits 10 n.natAbs else Nat.toDigits 10 n.natAbs

/-- Integers in decimal, floating point numbers with the fewest digits that read back. -/
def render (style : Decimal.Layout) : Number → List Char
  | .int n => intText n
  | .real x =>
    let q := x.toRat
    if q < 0 then '-' :: (Binary64.shortest (-q)).render style
    else (Binary64.shortest q).render style

def text (n : Number) : String :=
  String.ofList (n.render layout)

/-- A number as a program text may write it, without a sign: a run of digits, or a decimal. -/
def ofLiteral? (whole : List Char) (fraction : List Char) (exponent : Option Int) : Option Number :=
  match fraction, exponent with
  | [], none =>
    let n := Decimal.natOfDigits whole
    if n < wordBound then some (.int n) else none
  | fraction, exponent =>
    let d : Decimal := ⟨Decimal.natOfDigits (whole ++ fraction), exponent.getD 0 - fraction.length⟩
    d.round.map ofDyadic

/-- A signed 64-bit integer with an optional sign. -/
def signedInt? (cs : List Char) : Option Int :=
  let (negative, digits) := Decimal.splitSign cs
  if digits.isEmpty || !digits.all Char.isDigit then none
  else
    let size : Int := Decimal.natOfDigits digits
    let n := if negative then -size else size
    if -signedBound ≤ n ∧ n < signedBound then some n else none

def signedReal? (cs : List Char) : Option Number :=
  let (negative, rest) := Decimal.splitSign cs
  (Decimal.ofText? rest).bind fun d =>
    d.round.map fun x => ofDyadic (if negative then -x else x)

/-- The number a text spells between its blanks: a signed 64-bit integer, else a floating point
number. -/
def ofText? (s : String) : Option Number :=
  let cs := Text.stripBoth Text.isBlank s.toList
  match signedInt? cs with
  | some n => some (.int n)
  | none => signedReal? cs

end Number

end EarlyConfig

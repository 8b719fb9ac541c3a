import EarlyConfig.Number.Decimal

/-! The shortest decimal that rounds to a given binary number. -/
namespace EarlyConfig.Binary64

/-- The rationals that round to one binary number: an interval with or without its two ends. -/
structure Interval where
  low : Rat
  high : Rat
  closed : Bool

def Interval.contains (i : Interval) (q : Rat) : Bool :=
  if i.closed then i.low ≤ q && q ≤ i.high else i.low < q && q < i.high

/-- What rounds to a positive number of the format. Below a power of two the neighbour is nearer,
and an even last bit keeps the ends. -/
def roundingInterval (a : Rat) : Interval :=
  let unit := unitExponent a
  let width := (2 : Rat) ^ unit
  let count := (a / width).floor
  { low := a - (if count = 0x10000000000000 ∧ -1074 < unit then width / 4 else width / 2)
    high := a + width / 2
    closed := count % 2 = 0 }

/-- The `p` with `10 ^ (p - 1) ≤ a < 10 ^ p`, for positive `a`. -/
def decimalPlace (a : Rat) : Int :=
  let guess := binaryExponent a * 30103 / 100000
  if a < (10 : Rat) ^ guess then guess
  else if a < (10 : Rat) ^ (guess + 1) then guess + 1
  else guess + 2

/-- The multiple of `10 ^ k` nearest to `a` among the two neighbours that lie in the interval; of
two equally near ones the even one. -/
def nearestMultiple (a : Rat) (i : Interval) (k : Int) : Option Decimal :=
  let scaled := a / (10 : Rat) ^ k
  let below := scaled.floor.toNat
  let part := scaled - below
  let low : Decimal := ⟨below, k⟩
  let high : Decimal := ⟨below + 1, k⟩
  match i.contains low.value, i.contains high.value with
  | true, true =>
    if part < 1 / 2 then some low
    else if 1 / 2 < part then some high
    else if below % 2 = 0 then some low
    else some high
  | true, false => some low
  | false, true => some high
  | false, false => none

/-- The decimal with the fewest digits that rounds to the positive number `a` of the format, and of
those the nearest. Seventeen digits always suffice. -/
def shortest (a : Rat) : Decimal :=
  let i := roundingInterval a
  let place := decimalPlace a
  ((List.range 17).findSome? fun (n : Nat) => nearestMultiple a i (place - (n + 1))).getD ⟨0, 0⟩

end EarlyConfig.Binary64

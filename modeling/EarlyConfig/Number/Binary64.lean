/-! Binary floating point with 53 bits of precision. A number of the format is a dyadic rational,
and `round` gives the one nearest to a rational, a half going to the even neighbour. -/
namespace EarlyConfig.Binary64

/-- The `e` with `2 ^ e ≤ q < 2 ^ (e + 1)`, for positive `q`. -/
def binaryExponent (q : Rat) : Int :=
  let e : Int := (q.num.natAbs.log2 : Int) - q.den.log2
  if (2 : Rat) ^ e ≤ q then e else e - 1

/-- The exponent of the last bit that the format keeps of a positive `q`. -/
def unitExponent (q : Rat) : Int :=
  max (binaryExponent q - 52) (-1074)

/-- The nearest integer, a half going to the even one. -/
def nearestInt (q : Rat) : Int :=
  let below := q.floor
  let part := q - below
  if part < 1 / 2 then below
  else if 1 / 2 < part then below + 1
  else if below % 2 = 0 then below
  else below + 1

/-- The number of the format nearest to `q`, or nothing when that lies beyond the largest. -/
def round (q : Rat) : Option Dyadic :=
  if q = 0 then some 0
  else
    let size := if q < 0 then -q else q
    let unit := unitExponent size
    let count := nearestInt (size * (2 : Rat) ^ (-unit))
    if (2 : Rat) ^ (1024 : Int) ≤ count * (2 : Rat) ^ unit then none
    else some (Dyadic.ofIntWithPrec (if q < 0 then -count else count) (-unit))

end EarlyConfig.Binary64

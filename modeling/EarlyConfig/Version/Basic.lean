import EarlyConfig.Number.Decimal
import EarlyConfig.Text.Split

/-! Versions as three numbers with identifiers for a pre-release and a build, and their text. The
text may leave out trailing numbers and start with a `v`. -/
namespace EarlyConfig

structure Version where
  major : Nat
  minor : Nat
  patch : Nat
  /-- The identifiers that mark a pre-release; a release has none. -/
  pre : List String
  build : List String
deriving DecidableEq, Repr

inductive VersionError where
  | malformedConstraint (text : String)
  | malformedVersion (text : String)
  /-- The pre-release or the build is not made of identifiers. -/
  | metadata
deriving DecidableEq, Repr

def VersionError.message : VersionError → String
  | .malformedConstraint text => "Malformed constraint: " ++ text
  | .malformedVersion text => "Malformed version: " ++ text
  | .metadata => "Malformed version metadata"

namespace Version

/-! ### Writing -/

def preText (v : Version) : String :=
  ".".intercalate v.pre

def buildText (v : Version) : String :=
  ".".intercalate v.build

def text (v : Version) : String :=
  ".".intercalate ([v.major, v.minor, v.patch].map Decimal.natText) ++
    (if v.pre.isEmpty then "" else "-" ++ v.preText) ++
    (if v.build.isEmpty then "" else "+" ++ v.buildText)

/-! ### Reading -/

/-- Numbers in a version have 64 bits. -/
def segmentBound : Nat := 0x10000000000000000

def segment? (cs : List Char) : Option Nat :=
  if !cs.isEmpty && cs.all Char.isDigit && Decimal.natOfDigits cs < segmentBound then
    some (Decimal.natOfDigits cs)
  else none

/-- The numbers before the pre-release and the build: one to three of them. -/
def segments? (cs : List Char) : Option (List Nat) :=
  let written := cs.splitOn '.'
  if written.length ≤ 3 then written.mapM segment? else none

/-- Letters, digits and dashes, at least one. -/
def isIdentifier (cs : List Char) : Bool :=
  !cs.isEmpty && cs.all fun c => c.isAlphanum || c = '-'

/-- An identifier which, if it is a number, has no zero in front. -/
def isPreIdentifier (cs : List Char) : Bool :=
  isIdentifier cs && !(cs.all Char.isDigit && cs.head? = some '0' && 1 < cs.length)

/-- Identifiers with points between them. No text at all stands for no identifiers. -/
def identifiers? (ok : List Char → Bool) : Option (List Char) → Except VersionError (List String)
  | none => .ok []
  | some [] => .ok []
  | some cs =>
    let ids := cs.splitOn '.'
    if ids.all ok then .ok (ids.map String.ofList) else .error .metadata

/-- Reads a version and counts the numbers that are written in it; those left out are zero. -/
def read (s : String) : Except VersionError (Version × Nat) := do
  let cs := s.toList
  let (rest, build) := Text.cut '+' ((Text.after? ['v'] cs).getD cs)
  let (core, pre) := Text.cut '-' rest
  match segments? core with
  | none => .error (.malformedVersion s)
  | some numbers =>
    let pre ← identifiers? isPreIdentifier pre
    let build ← identifiers? isIdentifier build
    return (⟨numbers.getD 0 0, numbers.getD 1 0, numbers.getD 2 0, pre, build⟩, numbers.length)

end Version

end EarlyConfig

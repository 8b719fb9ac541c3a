import EarlyConfig.Text.Blank
import EarlyConfig.Version.Order

/-! Constraints on versions, such as `>= 1.2.0, < 2.0.0` and `~> 4.1`. -/
namespace EarlyConfig

namespace Constraint

inductive Operator where
  | equal
  | notEqual
  | greater
  | greaterEqual
  | less
  | lessEqual
  /-- Lets the last number that is written increase. -/
  | pessimistic
deriving DecidableEq, Repr

namespace Operator

def text : Operator → String
  | .equal => "="
  | .notEqual => "!="
  | .greater => ">"
  | .greaterEqual => ">="
  | .less => "<"
  | .lessEqual => "<="
  | .pessimistic => "~>"

/-- The order in which operators are looked for, so that none is taken for the beginning of another.
-/
def all : List Operator :=
  [.pessimistic, .greaterEqual, .lessEqual, .notEqual, .greater, .less, .equal]

/-- The operator at the beginning of a text and the text after it; equality needs none. -/
def split (cs : List Char) : Operator × List Char :=
  let found := all.findSome? fun op => (Text.after? op.text.toList cs).map fun rest => (op, rest)
  found.getD (.equal, cs)

end Operator

end Constraint

structure Constraint where
  operator : Constraint.Operator
  version : Version
  /-- How many of the numbers of the version are written. -/
  segments : Nat
  /-- The text that the constraint was read from. -/
  text : String
deriving DecidableEq, Repr

namespace Constraint

/-- Constraints are the same if they differ in their text at most. -/
def same (a b : Constraint) : Bool :=
  a.operator = b.operator && a.version = b.version && a.segments = b.segments

def accepts (c : Constraint) (v : Version) : Bool :=
  match c.operator with
  | .equal => v = c.version
  | .notEqual => v ≠ c.version
  | .greater => c.version < v
  | .greaterEqual => c.version ≤ v
  | .less => v < c.version
  | .lessEqual => v ≤ c.version
  | .pessimistic =>
    c.version ≤ v && v.major = c.version.major &&
      (c.segments ≤ 2 || v.minor = c.version.minor)

def read (s : String) : Except VersionError Constraint :=
  let text := Text.trim s
  let (operator, rest) := Operator.split text.toList
  match Version.read (Text.trim (String.ofList rest)) with
  | .ok (version, segments) => .ok ⟨operator, version, segments, text⟩
  | .error _ => .error (.malformedConstraint text)

end Constraint

/-- Constraints that hold together. -/
abbrev Constraints := List Constraint

namespace Constraints

/-- Reads constraints with commas between them. -/
def read (s : String) : Except VersionError Constraints :=
  (Text.pieces ',' s).mapM Constraint.read

def text (cs : Constraints) : String :=
  ",".intercalate (cs.map Constraint.text)

def accepts (cs : Constraints) (v : Version) : Bool :=
  cs.all (·.accepts v)

def same (as bs : Constraints) : Bool :=
  as.length = bs.length && (as.zip bs).all fun (a, b) => a.same b

end Constraints

end EarlyConfig

import EarlyConfig.Hcl.Expr
import EarlyConfig.Value

/-! Operators on values. A chain of binary operators comes from the reader nested to the right;
`Chain.regroup` turns it by precedence, where operators of one precedence stay grouped to the right.
-/
namespace EarlyConfig.Hcl

def UnaryOp.apply : UnaryOp → Value → Option Value
  | .neg, .number n => some (.number n.neg)
  | .not, .bool b => some (.bool !b)
  | _, _ => none

namespace BinaryOp

def precedence : BinaryOp → Nat
  | .mul => 6
  | .div => 6
  | .mod => 6
  | .add => 5
  | .sub => 5
  | .lt => 4
  | .le => 4
  | .gt => 4
  | .ge => 4
  | .eq => 3
  | .ne => 3
  | .and => 2
  | .or => 1

/-- Equality takes any two values, arithmetic and comparison numbers, logic truth values. -/
def apply (op : BinaryOp) (a b : Value) : Option Value :=
  match op, a, b with
  | .eq, a, b => some (.bool (a.same b))
  | .ne, a, b => some (.bool !(a.same b))
  | .lt, .number m, .number n => some (.bool (m.lt n))
  | .le, .number m, .number n => some (.bool (m.le n))
  | .gt, .number m, .number n => some (.bool (n.lt m))
  | .ge, .number m, .number n => some (.bool (n.le m))
  | .add, .number m, .number n => (m.add n).map .number
  | .sub, .number m, .number n => (m.sub n).map .number
  | .mul, .number m, .number n => (m.mul n).map .number
  | .div, .number m, .number n => (m.div n).map .number
  | .mod, .number m, .number n => (m.mod n).map .number
  | .and, .bool p, .bool q => some (.bool (p && q))
  | .or, .bool p, .bool q => some (.bool (p || q))
  | _, _, _ => none

end BinaryOp

/-- Values joined by operators. -/
inductive Chain where
  | value (v : Value)
  | node (left : Chain) (op : BinaryOp) (right : Chain)

namespace Chain

def size : Chain → Nat
  | .value _ => 1
  | .node left _ right => left.size + right.size + 1

/-- Regroups the right side, then turns `a op (b op' c)` into `(a op b) op' c` where `op'` has lower
precedence. -/
def regroup : Chain → Chain
  | .value v => .value v
  | .node left op right =>
    match right.regroup with
    | .value v => .node left op (.value v)
    | .node left' op' right' =>
      if op'.precedence < op.precedence then .node (.node left op left') op' right'
      else .node left op (.node left' op' right')

theorem size_regroup (c : Chain) : c.regroup.size = c.size := by
  induction c with
  | value v => rfl
  | node left op right _ ih =>
    simp only [regroup]
    split
    · rename_i h
      rw [h] at ih
      simp only [size] at ih ⊢
      omega
    · rename_i h
      rw [h] at ih
      split <;> simp only [size] at ih ⊢ <;> omega

/-- The value of a chain. Each side is regrouped again in its turn. -/
def result (c : Chain) : Option Value :=
  match _h : c.regroup with
  | .value v => some v
  | .node left op right => do
    let a ← left.result
    let b ← right.result
    op.apply a b
termination_by c.size
decreasing_by
  all_goals
    have := size_regroup c
    rw [_h] at this
    simp only [size] at this
    omega

end Chain

end EarlyConfig.Hcl

/-! Places in a text, counted in bytes. -/
namespace EarlyConfig.Hcl

/-- The bytes from `start` up to and without `stop`. -/
structure Span where
  start : Nat
  stop : Nat
deriving DecidableEq, Repr

/-- From where the first of two places starts to where the last of them ends. -/
def Span.join (a b : Span) : Span :=
  ⟨min a.start b.start, max a.stop b.stop⟩

/-- A piece of syntax with the place it was read from. -/
structure Located (α : Type) where
  value : α
  span : Span
deriving Repr

end EarlyConfig.Hcl

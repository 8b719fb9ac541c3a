import EarlyConfig.Hcl.Expr

/-! Bodies: the attributes and blocks of a file or of a block, in the order in which they stand. -/
namespace EarlyConfig.Hcl

structure Attribute where
  key : Located String
  value : Located Expr

/-- What stands before the braces of a block: its type and its labels. -/
structure Header where
  kind : Located String
  labels : List (Located String)

/-- One structure of a body. -/
inductive Item where
  | attr (a : Attribute)
  | block (header : Header) (body : List Item)

abbrev Body := List Item

structure Block where
  header : Header
  body : Body

/-- The place of the type of a block together with its last label. -/
def Header.span (h : Header) : Span :=
  match h.labels.getLast? with
  | some label => h.kind.span.join label.span
  | none => h.kind.span

namespace Item

def attr? : Item → Option Attribute
  | .attr a => some a
  | .block _ _ => none

def block? : Item → Option Block
  | .attr _ => none
  | .block header body => some ⟨header, body⟩

end Item

namespace Body

def attributes (b : Body) : List Attribute :=
  b.filterMap Item.attr?

def blocks (b : Body) : List Block :=
  b.filterMap Item.block?

def attributeNames (b : Body) : List String :=
  b.attributes.map (·.key.value)

end Body

end EarlyConfig.Hcl

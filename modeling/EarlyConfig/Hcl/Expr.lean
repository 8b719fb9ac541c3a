import EarlyConfig.Hcl.Span
import EarlyConfig.Number.Basic

/-! Expressions of the configuration language as written. The items of lists and objects carry their
places; two expressions are the same syntax when they differ in nothing but places, which is to say
when their `shape`s agree. -/
namespace EarlyConfig.Hcl

inductive UnaryOp where
  | neg
  | not
deriving DecidableEq, Repr

inductive BinaryOp where
  | eq
  | ne
  | lt
  | le
  | gt
  | ge
  | add
  | sub
  | mul
  | div
  | mod
  | and
  | or
deriving DecidableEq, Repr

/-- Whether a template sequence takes the blanks before it and after it. -/
structure Strip where
  before : Bool
  after : Bool
deriving DecidableEq, Repr

mutual

inductive Expr where
  | null
  | bool (b : Bool)
  | number (n : Number)
  /-- A quoted string without sequences. -/
  | text (s : String)
  | list (items : List (Located Expr))
  /-- Keys with their values. A key that is a bare variable stands for its own name. -/
  | object (items : List (Located Expr × Located Expr))
  /-- A quoted string with sequences, or a here-document. -/
  | template (parts : List Part)
  | variable (name : String)
  | traversal (root : Expr) (steps : List Step)
  | call (name : String) (args : List Expr) (spread : Bool)
  | paren (inner : Expr)
  | unary (op : UnaryOp) (arg : Expr)
  | binary (left : Expr) (op : BinaryOp) (right : Expr)
  | conditional (cond yes no : Expr)
  | forList (key : Option String) (item : String) (source body : Expr) (guard : Option Expr)
  | forObject (key : Option String) (item : String) (source name body : Expr) (group : Bool)
      (guard : Option Expr)

/-- A piece of a template. -/
inductive Part where
  | literal (s : String)
  | interpolation (e : Expr) (strip : Strip)
  /-- A choice; without an else the second branch is empty and has no strip marks. -/
  | choice (cond : Expr) (opening : Strip) (yes : List Part) (middle : Option Strip)
      (no : List Part) (closing : Strip)
  | loop (key : Option String) (item : String) (source : Expr) (opening : Strip) (body : List Part)
      (closing : Strip)

/-- A step from a value to a part of it. -/
inductive Step where
  | attr (name : String)
  /-- An index written after a dot. -/
  | position (n : Nat)
  | index (e : Expr)
  /-- A star after a dot. -/
  | attributeSplat
  /-- A star in brackets. -/
  | fullSplat

end

/-! ### Shapes -/

/-- One mark of a shape: a node with the number of its children, or what a leaf holds. -/
inductive Mark where
  | node (kind : String) (children : Nat)
  | name (s : String)
  | number (n : Number)
  | flag (b : Bool)
  | unary (op : UnaryOp)
  | binary (op : BinaryOp)
  | strip (s : Strip)
deriving DecidableEq

def Mark.ofOption (f : α → Mark) : Option α → List Mark
  | none => [.flag false]
  | some a => [.flag true, f a]

mutual

/-- The expression in prefix order without its places. -/
def Expr.shape : Expr → List Mark
  | .null => [.node "null" 0]
  | .bool b => [.node "bool" 0, .flag b]
  | .number n => [.node "number" 0, .number n]
  | .text s => [.node "text" 0, .name s]
  | .list items => .node "list" items.length :: itemShapes items
  | .object items => .node "object" items.length :: entryShapes items
  | .template parts => .node "template" parts.length :: partShapes parts
  | .variable name => [.node "variable" 0, .name name]
  | .traversal root steps => .node "traversal" steps.length :: (root.shape ++ stepShapes steps)
  | .call name args spread =>
    .node "call" args.length :: .name name :: .flag spread :: exprShapes args
  | .paren inner => .node "paren" 1 :: inner.shape
  | .unary op arg => .node "unary" 1 :: .unary op :: arg.shape
  | .binary left op right => .node "binary" 2 :: .binary op :: (left.shape ++ right.shape)
  | .conditional cond yes no => .node "conditional" 3 :: (cond.shape ++ yes.shape ++ no.shape)
  | .forList key item source body guard =>
    .node "forList" 3 :: (Mark.ofOption .name key ++ .name item :: (source.shape ++ body.shape ++
      guardShape guard))
  | .forObject key item source name body group guard =>
    .node "forObject" 4 :: .flag group :: (Mark.ofOption .name key ++ .name item :: (source.shape ++
      name.shape ++ body.shape ++ guardShape guard))
termination_by structural e => e

def guardShape : Option Expr → List Mark
  | none => [.flag false]
  | some e => .flag true :: e.shape
termination_by structural g => g

def exprShapes : List Expr → List Mark
  | [] => []
  | e :: rest => e.shape ++ exprShapes rest
termination_by structural es => es

def itemShapes : List (Located Expr) → List Mark
  | [] => []
  | ⟨e, _⟩ :: rest => e.shape ++ itemShapes rest
termination_by structural items => items

def entryShapes : List (Located Expr × Located Expr) → List Mark
  | [] => []
  | (⟨k, _⟩, ⟨e, _⟩) :: rest => k.shape ++ e.shape ++ entryShapes rest
termination_by structural items => items

def partShapes : List Part → List Mark
  | [] => []
  | p :: rest => p.shape ++ partShapes rest
termination_by structural parts => parts

def stepShapes : List Step → List Mark
  | [] => []
  | s :: rest => s.shape ++ stepShapes rest
termination_by structural steps => steps

def Part.shape : Part → List Mark
  | .literal s => [.node "literal" 0, .name s]
  | .interpolation e strip => .node "interpolation" 1 :: .strip strip :: e.shape
  | .choice cond opening yes middle no closing =>
    .node "choice" yes.length :: .strip opening :: .strip closing ::
      (Mark.ofOption .strip middle ++ cond.shape ++ partShapes yes ++
        .node "else" no.length :: partShapes no)
  | .loop key item source opening body closing =>
    .node "loop" body.length :: .strip opening :: .strip closing ::
      (Mark.ofOption .name key ++ .name item :: (source.shape ++ partShapes body))
termination_by structural p => p

def Step.shape : Step → List Mark
  | .attr name => [.node "attr" 0, .name name]
  | .position n => [.node "position" 0, .number (.int n)]
  | .index e => .node "index" 1 :: e.shape
  | .attributeSplat => [.node "attributeSplat" 0]
  | .fullSplat => [.node "fullSplat" 0]
termination_by structural s => s

end

def Mark.same : Mark → Mark → Bool
  | .number m, .number n => m.same n
  | a, b => a = b

/-- Whether two expressions differ in nothing but places and the spelling of numbers. -/
def Expr.sameSyntax (e f : Expr) : Bool :=
  e.shape.isEqv f.shape Mark.same

/-- The name a key of an object spells, if it spells one: a bare word or a plain quoted string. -/
def Expr.keyName? : Expr → Option String
  | .variable name => some name
  | .text s => some s
  | _ => none

end EarlyConfig.Hcl

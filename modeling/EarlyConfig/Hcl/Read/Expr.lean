import EarlyConfig.Hcl.Read.Heredoc

/-! Reading expressions.

A unary operator belongs to the bare term after it, of several in a row the last one counts, and a
minus before a number is part of the number. The right side of a binary operator is all the rest of
the expression; precedence plays no part here. Line ends may stand around operators inside
parentheses, and once a term in parentheses has been read.

`term` and the readers it uses take the reader of nested expressions as an argument; `exprWithin`
ties the knot, and `expr` gives it the bytes left as a bound, of which each level of nesting takes
one. -/
namespace EarlyConfig.Hcl.Read

/-- Reads an expression with its place, with or without line ends around its operators. -/
abbrev ExprReader := Bool → Reader (Located Expr)

/-- What may stand around an operator. -/
def around (lineEnds : Bool) : Reader Unit :=
  if lineEnds then gap else space

/-! ### Terms -/

section

variable (nested : ExprReader)

def bare : Reader Expr := do
  return (← nested false).value

/-- Items with commas between them and perhaps one after the last. No item starts with one of the
characters in `stops`. -/
def items (stops : List Char) : Reader (List (Located Expr)) :=
  separated1 (gap *> notAhead (charIf (stops.contains ·)) *> nested false <* gap) (char ',')

def list : Reader Expr := do
  let found ← opt (items nested [',', ']'] <* opt (char ','))
  gap
  return .list (found.getD [])

/-- A loop in brackets or braces starts with its keyword and a blank or comment after it. -/
def loopAhead : Reader Unit :=
  ahead (gap *> word "for" *> charIf fun c => isSpace c || c = '#' || c = '/')

def filter : Reader (Option Expr) :=
  opt (word "if" *> spaced (bare nested))

def forList : Reader Expr := do
  gap
  let (key, item, source) ← binding (bare nested)
  char ':'
  let body ← spaced (bare nested)
  return .forList key item source body (← filter nested)

def forObject : Reader Expr := do
  gap
  let (key, item, source) ← binding (bare nested)
  char ':'
  let name ← spaced (bare nested)
  word "=>"
  let body ← spaced (bare nested)
  let group ← flag (word "...")
  return .forObject key item source name body group (← filter nested)

def bracketed : Reader Expr := do
  char '['
  let e ← if ← flag loopAhead then forList nested else list nested
  char ']'
  return e

/-- Puts an entry into an object: a key written before keeps its place and gets the new value. -/
def putEntry (key value : Located Expr) :
    List (Located Expr × Located Expr) → List (Located Expr × Located Expr)
  | [] => [(key, value)]
  | (k, v) :: rest =>
    if k.value.sameSyntax key.value then (k, value) :: rest
    else (k, v) :: putEntry key value rest

/-- What may stand after an entry of an object. -/
def entryEnd : Reader Unit :=
  char ',' <|> lineEnd <|> lineComment *> lineEnd <|> ahead (char '}')

def entry : Reader (Located Expr × Located Expr) := do
  gap
  let key ← nested false
  space
  char '=' <|> char ':'
  space
  let value ← nested false
  space
  entryEnd
  return (key, value)

def object : Reader Expr := do
  let entries ← many (entry nested)
  gap
  return .object (entries.foldl (fun acc e => putEntry e.1 e.2 acc) [])

def braced : Reader Expr := do
  char '{'
  let e ← if ← flag loopAhead then forObject nested else object nested
  char '}'
  return e

def parenthesized : Reader Expr := do
  char '('
  gap
  let e ← nested true
  gap
  char ')'
  return .paren e.value

/-- The arguments of a call, the last one perhaps spread out. -/
def arguments : Reader (List Expr × Bool) := do
  char '('
  let found ← opt do
    let args ← items nested [',', '.', ')']
    let spread ← flag (word "...")
    let _ ← if spread then pure none else opt (char ',')
    return (args.map (·.value), spread)
  gap
  char ')'
  return found.getD ([], false)

def named : Reader Expr := do
  let name ← identifier
  match ← opt (gap *> arguments nested), name with
  | some (args, spread), name => return .call name args spread
  | none, "null" => return .null
  | none, "true" => return .bool true
  | none, "false" => return .bool false
  | none, name => return .variable name

def negativeNumber : Reader Expr := do
  char '-'
  space
  return .number (← number).neg

def bareTerm : Reader Expr :=
  .number <$> number <|> negativeNumber <|>
  .text <$> quotedString <|> .template <$> quotedTemplate (bare nested) <|>
  .template <$> heredoc (bare nested) <|>
  bracketed nested <|> braced nested <|> parenthesized nested <|> named nested

def unaryOp (lineEnds : Bool) : Reader (Located UnaryOp) := do
  notAhead negativeNumber
  let op ← located (char '-' *> pure .neg <|> char '!' *> pure .not)
  around lineEnds
  return op

/-- A term with the unary operators before it. -/
def term (lineEnds : Bool) : Reader (Located Expr) := do
  let ops ← many (unaryOp lineEnds)
  let e ← located (bareTerm nested)
  match ops.getLast? with
  | none => return e
  | some op => return ⟨.unary op.value e.value, ⟨op.span.start, e.span.stop⟩⟩

/-! ### Operators after a term -/

def attributeStep : Reader Step := do
  char '.'
  gap
  char '*' *> pure .attributeSplat <|> position <|> .attr <$> identifier
where
  position : Reader Step := do
    let n := Decimal.natOfDigits (← digits)
    if n < Number.wordBound then return .position n else failure

def indexStep : Reader Step := do
  char '['
  gap
  let step ← char '*' *> pure .fullSplat <|> .index <$> bare nested
  gap
  char ']'
  return step

def steps (lineEnds : Bool) : Reader (List Step) :=
  many (around lineEnds *> (attributeStep <|> indexStep nested))

def binaryOp : Reader BinaryOp :=
  word "==" *> pure .eq <|> word "!=" *> pure .ne <|>
  word "<=" *> pure .le <|> word ">=" *> pure .ge <|>
  char '<' *> pure .lt <|> char '>' *> pure .gt <|>
  word "&&" *> pure .and <|> word "||" *> pure .or <|>
  char '+' *> pure .add <|> char '-' *> pure .sub <|>
  char '*' *> pure .mul <|> char '%' *> pure .mod <|>
  notAhead (word "//" <|> word "/*") *> char '/' *> pure .div

/-- The rest of an expression after its first term. -/
def operation (lineEnds : Bool) (left : Located Expr) : Reader (Located Expr) :=
  conditional <|> binary <|> pure left
where
  conditional : Reader (Located Expr) := do
    around lineEnds
    char '?'
    around lineEnds
    let yes ← nested lineEnds
    around lineEnds
    char ':'
    around lineEnds
    let no ← nested lineEnds
    return ⟨.conditional left.value yes.value no.value, ⟨left.span.start, no.span.stop⟩⟩
  binary : Reader (Located Expr) := do
    around lineEnds
    let op ← binaryOp
    around lineEnds
    let right ← nested lineEnds
    return ⟨.binary left.value op right.value, ⟨left.span.start, right.span.stop⟩⟩

/-- Whether a term is one in parentheses, perhaps behind a unary operator. -/
def isParenthesized : Expr → Bool
  | .paren _ => true
  | .unary _ (.paren _) => true
  | _ => false

/-- One expression, given the reader of those nested in it. -/
def exprOver (lineEnds : Bool) : Reader (Located Expr) := do
  let root ← term nested lineEnds
  let lineEnds := lineEnds || isParenthesized root.value
  let path ← located (steps nested lineEnds)
  let left : Located Expr := match path.value with
    | [] => root
    | path' => ⟨.traversal root.value path', ⟨root.span.start, path.span.stop⟩⟩
  operation nested lineEnds left

end

/-! ### Nesting -/

/-- Expressions that nest less deep than the bound. -/
def exprWithin : Nat → ExprReader
  | 0 => fun _ => failure
  | depth + 1 => exprOver (exprWithin depth)

def expr : Reader (Located Expr) := do
  exprWithin ((← bytesLeft) + 1) false

end EarlyConfig.Hcl.Read

namespace EarlyConfig.Hcl

/-- The expression that makes up the whole text. -/
def Expr.ofText? (s : String) : Option Expr :=
  Read.whole ((·.value) <$> Read.expr) s

end EarlyConfig.Hcl

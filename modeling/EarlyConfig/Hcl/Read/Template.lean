import EarlyConfig.Hcl.Expr
import EarlyConfig.Hcl.Read.Text

/-! Templates: literal text among sequences that hold expressions, choices and loops. The readers
here take the reader of expressions as an argument. -/
namespace EarlyConfig.Hcl.Read

section

variable (expr : Reader Expr)

/-- An expression with gaps on both sides. -/
def spaced : Reader Expr :=
  gap *> expr <* gap

/-- What a sequence with this mark holds, with its strip marks. -/
def sequence (mark : Char) (p : Reader α) : Reader (α × Strip) := do
  char mark
  char '{'
  let before ← flag (char '~')
  let a ← p
  let after ← flag (char '~')
  char '}'
  return (a, ⟨before, after⟩)

def keyword (s : String) : Reader Strip := do
  return (← sequence '%' (gap *> word s *> gap)).2

/-- The variables of a loop, the first of two for keys, and what it runs over. -/
def binding : Reader (Option String × String × Expr) := do
  word "for"
  let first ← gap *> identifier <* gap
  let second ← opt (char ',' *> gap *> identifier <* gap)
  word "in"
  let source ← spaced expr
  match second with
  | none => return (none, first, source)
  | some item => return (some first, item, source)

def interpolation : Reader Part := do
  let (e, strip) ← sequence '$' (spaced expr)
  return .interpolation e strip

def choice (parts : Reader (List Part)) : Reader Part := do
  let (cond, opening) ← sequence '%' (gap *> word "if" *> spaced expr)
  let yes ← parts
  let middle ← opt (keyword "else")
  let no ← if middle.isSome then parts else pure []
  let closing ← keyword "endif"
  return .choice cond opening yes middle no closing

def loop (parts : Reader (List Part)) : Reader Part := do
  let ((key, item, source), opening) ← sequence '%' (gap *> binding expr)
  let body ← parts
  let closing ← keyword "endfor"
  return .loop key item source opening body closing

/-- The parts of a template whose literal text the given reader reads; choices and loops nest at
most so deep. -/
def parts (literal : Reader String) : Nat → Reader (List Part)
  | 0 => pure []
  | depth + 1 =>
    many (.literal <$> literal <|> interpolation expr <|> choice expr (parts literal depth) <|>
      loop expr (parts literal depth))

/-- A quoted string with sequences. -/
def quotedTemplate : Reader (List Part) := do
  char '"'
  let ps ← parts expr quotedText (← bytesLeft)
  char '"'
  return ps

end

end EarlyConfig.Hcl.Read

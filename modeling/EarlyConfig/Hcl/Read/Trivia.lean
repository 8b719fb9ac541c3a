import EarlyConfig.Hcl.Read.Cursor

/-! What may stand between the words of the language, and the words themselves. *Space* is blanks
and bracketed comments; *gap* is also line ends and comments that run to the end of the line. -/
namespace EarlyConfig.Hcl.Read

/-! ### Line ends and comments -/

def lineEnd : Reader Unit :=
  char '\n' <|> word "\r\n"

/-- The rest of the line. A carriage return that does not belong to a line end is refused. -/
def toLineEnd : Reader Unit := do
  let _ ← charsWhile fun c => c ≠ '\n' && c ≠ '\r'
  notAhead (char '\r' *> notAhead (char '\n'))

def lineComment : Reader Unit :=
  (char '#' <|> word "//") *> toLineEnd

/-- The characters up to and with the mark that closes a bracketed comment. -/
def commentTail : List Char → Option (List Char)
  | [] => none
  | '*' :: '/' :: _ => some ['*', '/']
  | c :: rest => (commentTail rest).map (c :: ·)

def bracketComment : Reader Unit := do
  word "/*"
  match commentTail (← rest) with
  | some tail => chars tail
  | none => failure

/-! ### Space and gaps -/

def isSpace (c : Char) : Bool :=
  c = ' ' || c = '\t'

def isGap (c : Char) : Bool :=
  isSpace c || c = '\n' || c = '\r'

def space : Reader Unit := do
  let _ ← charsWhile isSpace
  let _ ← many (bracketComment <* charsWhile isSpace)

def gap : Reader Unit := do
  let _ ← charsWhile isGap
  let _ ← many ((lineComment <|> bracketComment) <* charsWhile isGap)

/-- The end of a line with nothing but space and a comment before it. -/
def restOfLine : Reader Unit := do
  space
  let _ ← opt lineComment
  lineEnd

/-! ### Words -/

def isWordStart (c : Char) : Bool :=
  c.isAlpha || c = '_'

def isWordPart (c : Char) : Bool :=
  c.isAlphanum || c = '_' || c = '-'

def identifier : Reader String := do
  let first ← charIf isWordStart
  let others ← charsWhile isWordPart
  return String.ofList (first :: others)

end EarlyConfig.Hcl.Read

import EarlyConfig.Hcl.Span

/-! Reading a text from left to right. A reader takes the characters still to come and the number of
bytes before them, and either fails or gives a result and the place it has come to.

Repetition needs no measure of its own: each turn takes a byte or more, so the bytes left bound the
number of turns. -/
namespace EarlyConfig.Hcl

/-- The text still to be read, the bytes before it, and the bytes of the whole text. -/
structure Cursor where
  rest : List Char
  offset : Nat
  size : Nat

abbrev Reader := StateT Cursor Option

namespace Read

def start (s : String) : Cursor :=
  ⟨s.toList, 0, s.utf8ByteSize⟩

/-- The result of a reader that reads the whole text. -/
def whole (p : Reader α) (s : String) : Option α :=
  match p (start s) with
  | some (a, ⟨[], _, _⟩) => some a
  | _ => none

def rest : Reader (List Char) := do
  return (← get).rest

def offset : Reader Nat := do
  return (← get).offset

/-- The bytes still to be read. -/
def bytesLeft : Reader Nat := do
  let c ← get
  return c.size - c.offset

def atEnd : Reader Unit := do
  guard (← rest).isEmpty

/-- Reads one character of a class. -/
def charIf (p : Char → Bool) : Reader Char := fun c =>
  match c.rest with
  | [] => none
  | x :: xs =>
    if p x then some (x, { c with rest := xs, offset := c.offset + x.utf8Size }) else none

def anyChar : Reader Char :=
  charIf fun _ => true

def char (x : Char) : Reader Unit := do
  let _ ← charIf (· = x)

/-- Reads exactly these characters. -/
def chars : List Char → Reader Unit
  | [] => pure ()
  | x :: xs => do
    char x
    chars xs

def word (s : String) : Reader Unit :=
  chars s.toList

/-- Succeeds without moving when the reader would succeed. -/
def ahead (p : Reader α) : Reader Unit := fun c =>
  (p c).map fun _ => ((), c)

/-- Succeeds without moving when the reader would fail. -/
def notAhead (p : Reader α) : Reader Unit := fun c =>
  match p c with
  | none => some ((), c)
  | some _ => none

def opt (p : Reader α) : Reader (Option α) :=
  some <$> p <|> pure none

/-- Whether the reader succeeds; it moves only if it does. -/
def flag (p : Reader α) : Reader Bool := do
  return (← opt p).isSome

/-- At most so many results in a row. -/
def upTo (p : Reader α) : Nat → Reader (List α)
  | 0 => pure []
  | n + 1 => do
    match ← opt p with
    | none => return []
    | some a => return a :: (← upTo p n)

/-- As many results in a row as there are, for a reader that takes a byte or more each time. -/
def many (p : Reader α) : Reader (List α) := do
  upTo p (← bytesLeft)

def many1 (p : Reader α) : Reader (List α) := do
  let first ← p
  return first :: (← many p)

/-- Results with a separator between each two. -/
def separated1 (p : Reader α) (separator : Reader β) : Reader (List α) := do
  let first ← p
  return first :: (← many (separator *> p))

def exactly (p : Reader α) : Nat → Reader (List α)
  | 0 => pure []
  | n + 1 => do
    let first ← p
    return first :: (← exactly p n)

def charsWhile (p : Char → Bool) : Reader (List Char) :=
  many (charIf p)

def charsWhile1 (p : Char → Bool) : Reader (List Char) :=
  many1 (charIf p)

/-- The result with the place it was read from. -/
def located (p : Reader α) : Reader (Located α) := do
  let start ← offset
  let a ← p
  return ⟨a, ⟨start, ← offset⟩⟩

end Read

end EarlyConfig.Hcl

import EarlyConfig.Hcl.Read.Template
import EarlyConfig.Text.Blank

/-! Here-documents: the lines between a marker and its repetition, as a template. The indented form
loses the indentation that its lines have in common. -/
namespace EarlyConfig.Hcl

/-! ### Indentation -/

namespace Indent

def withoutReturn (line : List Char) : List Char :=
  if line.getLast? = some '\r' then line.dropLast else line

/-- The lines of a text without their ends. A text that ends with a line end has no line after it.
-/
def lines (cs : List Char) : List (List Char) :=
  let pieces := cs.splitOn '\n'
  pieces.dropLast.map withoutReturn ++ pieces.getLast?.toList.filter fun l => !l.isEmpty

def endsLine (s : String) : Bool :=
  s.toList.getLast? = some '\n'

/-- The smaller of two numbers, as far as they are given. -/
def smaller : Option Nat → Option Nat → Option Nat
  | none, b => b
  | a, none => a
  | some a, some b => some (min a b)

/-- The least indentation of the lines that are not empty, or nothing if one of them has none. -/
def least : List (List Char) → Option Nat
  | [] => none
  | ls =>
    let widths := (ls.filter fun l => !l.isEmpty).map fun l => (l.takeWhile Text.isBlank).length
    if widths.any (· = 0) then none else widths.min?

/-- The least indentation of the lines that start in a piece of literal text. -/
def ofText (midLine : Bool) (s : String) : Option Nat :=
  let ls := lines s.toList
  least (if midLine then ls.drop 1 else ls)

/-- The indentation that a template loses: the least one of its pieces, but none at all when a
sequence stands at the very start of a line. -/
def common (midLine : Bool) (best : Option Nat) : List Part → Option Nat
  | [] => best
  | .literal s :: rest => common (!endsLine s) (smaller best (ofText midLine s)) rest
  | _ :: rest => if midLine then common true best rest else none

/-- A piece of literal text with each line that starts in it shortened. -/
def cut (n : Nat) (midLine : Bool) (s : String) : String :=
  let ls := (lines s.toList).mapIdx fun i l => if midLine && i = 0 then l else l.drop n
  String.ofList ((['\n'].intercalate ls) ++ if endsLine s then ['\n'] else [])

def cutAll (n : Nat) (midLine : Bool) : List Part → List Part
  | [] => []
  | .literal s :: rest => .literal (cut n midLine s) :: cutAll n (!endsLine s) rest
  | p :: rest => p :: cutAll n true rest

/-- The parts of an indented here-document without their common indentation. -/
def remove (ps : List Part) : List Part :=
  match common false none ps with
  | none => ps
  | some n => cutAll n false ps

end Indent

/-! ### Reading -/

namespace Read

/-- The marker on a line of its own ends the text. -/
def closingMarker (marker : String) : Reader Unit :=
  charsWhile isSpace *> word marker

/-- Literal text up to a sequence or to the line end before the closing marker. -/
def heredocText (marker : String) : Reader String := do
  let piece : Reader (List Char) :=
    doubledMark <|>
    (notAhead sequenceMark *> notAhead (lineEnd *> closingMarker marker) *>
      List.singleton <$> anyChar)
  return String.ofList (← many1 piece).flatten

/-- The parts with text added at their end. -/
def addText (s : String) : List Part → List Part
  | [] => [.literal s]
  | [.literal t] => [.literal (t ++ s)]
  | p :: rest => p :: addText s rest

def heredocBody (expr : Reader Expr) (marker : String) : Reader (List Part) :=
  closingMarker marker *> pure [] <|> do
    let ps ← parts expr (heredocText marker) (← bytesLeft)
    let last ← word "\r\n" *> pure "\r\n" <|> word "\n" *> pure "\n"
    closingMarker marker
    return addText last ps

def heredoc (expr : Reader Expr) : Reader (List Part) := do
  word "<<"
  let indented ← flag (char '-')
  let marker ← identifier
  lineEnd
  let ps ← heredocBody expr marker
  return if indented then Indent.remove ps else ps

end Read

end EarlyConfig.Hcl

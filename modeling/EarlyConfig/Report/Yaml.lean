import EarlyConfig.Report.Document

/-! Documents as YAML text in block style. -/
namespace EarlyConfig.Yaml

/-! ### Characters -/

def isBreak (c : Char) : Bool :=
  c = '\n' || c = '\r' || c = '\u0085' || c = '\u2028' || c = '\u2029'

/-- Whether a character, or the end of the text, separates words. -/
def isGap : Option Char → Bool
  | none => true
  | some c => c = ' ' || c = '\t' || c = '\x00' || isBreak c

/-- The code points that are written as they are. -/
def shownRanges : List (Nat × Nat) :=
  [(0xa, 0xa), (0x20, 0x7e), (0xa0, 0xd7ff), (0xe000, 0xfefe), (0xff00, 0xfffd)]

def isShown (c : Char) : Bool :=
  Text.inRanges shownRanges c

/-! ### Words that stand for something other than text -/

/-- A number with zeros in front, which is text by its own right. -/
def isPadded (cs : List Char) : Bool :=
  match (Decimal.splitSign cs).2 with
  | '0' :: rest => !rest.isEmpty && rest.all Char.isDigit
  | _ => false

def hexDigitValue? (c : Char) : Option Nat :=
  if c.isDigit then some (c.toNat - '0'.toNat)
  else if 'a' ≤ c.toLower && c.toLower ≤ 'f' then some (c.toLower.toNat - 'a'.toNat + 10)
  else none

/-- The number that digits spell in a base. -/
def inBase? (base : Nat) (cs : List Char) : Option Nat := do
  let digits ← cs.mapM hexDigitValue?
  if !digits.isEmpty && digits.all (· < base) then some (digits.foldl (fun n d => base * n + d) 0)
  else none

/-- Digits with a mark in front that gives their base. -/
def based? : List Char → Option Nat
  | '0' :: 'x' :: rest => inBase? 16 rest
  | '0' :: 'o' :: rest => inBase? 8 rest
  | '0' :: 'b' :: rest => inBase? 2 rest
  | _ => none

/-- An integer that fits into 128 bits, with the mark of its base. -/
def isBased (cs : List Char) : Bool :=
  let (negative, unsigned) := Decimal.splitSign cs
  (based? unsigned).any fun n =>
    if negative then n ≤ 0x80000000000000000000000000000000
    else n < 0x100000000000000000000000000000000

def infinityWords : List String :=
  [".inf", ".Inf", ".INF", "+.inf", "+.Inf", "+.INF", "-.inf", "-.Inf", "-.INF"]

def nanWords : List String :=
  [".nan", ".NaN", ".NAN"]

/-- A decimal number that is finite. -/
def isFinite (cs : List Char) : Bool :=
  ((Decimal.ofText? cs).bind Decimal.round).isSome

def isNumber (s : String) : Bool :=
  infinityWords.contains s || nanWords.contains s || isBased s.toList ||
    isFinite (Decimal.splitSign s.toList).2

def reservedWords : List String :=
  ["", "~", "null", "Null", "NULL", "true", "True", "TRUE", "false", "False", "FALSE"]

/-- Whether a text without quotes would not be read as text. -/
def isAmbiguous (s : String) : Bool :=
  reservedWords.contains s || isPadded s.toList || isNumber s

/-! ### Styles -/

inductive Style where
  | plain
  | single
  | double
  | literal
deriving DecidableEq, Repr

/-- Whether two neighbours in a text satisfy a condition. -/
def anyNeighbours (p : Char → Char → Bool) : List Char → Bool
  | a :: b :: rest => p a b || anyNeighbours p (b :: rest)
  | _ => false

/-- Marks inside a text that would end it: a colon before a gap, and a hash sign after one. -/
def innerMark : List Char → Bool
  | a :: b :: rest =>
    (b = ':' && isGap rest.head?) || (b = '#' && isGap (some a)) || innerMark (b :: rest)
  | _ => false

/-- Characters that mean something at the beginning of a text. -/
def leadingMarks : List Char :=
  "#,[]\x7b\x7d&*!|>'\"%@`".toList

def leadingMark (cs : List Char) : Bool :=
  ['-', '-', '-'].isPrefixOf cs || ['.', '.', '.'].isPrefixOf cs ||
    match cs with
    | [] => false
    | c :: rest => leadingMarks.contains c || (['?', ':', '-'].contains c && isGap rest.head?)

def hidesCharacters (cs : List Char) : Bool :=
  cs.any fun c => !isShown c

def breakBeforeSpace (cs : List Char) : Bool :=
  anyNeighbours (fun a b => isBreak a && b = ' ') cs

def spaceBeforeBreak (cs : List Char) : Bool :=
  anyNeighbours (fun a b => a = ' ' && isBreak b) cs

def plainAllowed (cs : List Char) : Bool :=
  !(cs.head? = some ' ' || cs.getLast? = some ' ' || cs.any isBreak || hidesCharacters cs ||
    leadingMark cs || innerMark cs)

def singleAllowed (cs : List Char) : Bool :=
  !(breakBeforeSpace cs || spaceBeforeBreak cs || hidesCharacters cs)

def literalAllowed (cs : List Char) : Bool :=
  !(cs.getLast? = some ' ' || spaceBeforeBreak cs || hidesCharacters cs)

/-- The first style in which the text can be written: literally if it has lines, else plainly unless
it would be misread, else in quotes. -/
def styleOf (s : String) : Style :=
  let cs := s.toList
  if cs.contains '\n' then
    if literalAllowed cs then .literal else .double
  else if !isAmbiguous s && plainAllowed cs then .plain
  else if singleAllowed cs then .single
  else .double

/-! ### Texts -/

def indentation (n : Nat) : List Char :=
  List.replicate n ' '

def hexDigits (width n : Nat) : List Char :=
  let digits := (Nat.toDigits 16 n).map Char.toUpper
  List.replicate (width - digits.length) '0' ++ digits

def escapeLetter? : Char → Option Char
  | '\x00' => some '0'
  | '\x07' => some 'a'
  | '\x08' => some 'b'
  | '\t' => some 't'
  | '\n' => some 'n'
  | '\x0b' => some 'v'
  | '\x0c' => some 'f'
  | '\r' => some 'r'
  | '\x1b' => some 'e'
  | '"' => some '"'
  | '\\' => some '\\'
  | '\u0085' => some 'N'
  | '\u2028' => some 'L'
  | '\u2029' => some 'P'
  | _ => none

def escape (c : Char) : List Char :=
  match escapeLetter? c with
  | some letter => ['\\', letter]
  | none =>
    if isShown c then [c]
    else if c.toNat ≤ 0xff then '\\' :: 'x' :: hexDigits 2 c.toNat
    else if c.toNat ≤ 0xffff then '\\' :: 'u' :: hexDigits 4 c.toNat
    else '\\' :: 'U' :: hexDigits 8 c.toNat

def double (cs : List Char) : List Char :=
  '"' :: (cs.flatMap escape ++ ['"'])

/-- The text after the start of a line: each line that is not empty is indented. -/
def lines (indent : Nat) (atStart : Bool) : List Char → List Char
  | [] => []
  | c :: rest =>
    if isBreak c then c :: lines indent true rest
    else (if atStart then indentation indent else []) ++ c :: lines indent false rest

def single (indent : Nat) (cs : List Char) : List Char :=
  let text := lines indent false (cs.flatMap fun c => if c = '\'' then ['\'', '\''] else [c])
  '\'' :: (text ++ (if cs.getLast?.any isBreak then indentation indent else []) ++ ['\''])

/-- How a literal text ends: with no line break, with one, or with more. -/
def chomping (cs : List Char) : List Char :=
  match cs.reverse with
  | [] => ['-']
  | last :: before =>
    if !isBreak last then ['-'] else if before.head?.all isBreak then ['+'] else []

/-- The indentation is given if it cannot be seen from the first line. -/
def indentHint (cs : List Char) : List Char :=
  if cs.head?.any (fun c => c = ' ' || isBreak c) then ['2'] else []

/-- A literal text, up to the end of its last line. -/
def literal (indent : Nat) (cs : List Char) : List Char :=
  '|' :: (indentHint cs ++ chomping cs ++ '\n' :: lines indent true cs ++
    (if cs.getLast?.any isBreak then [] else ['\n']))

/-- A text up to the end of its line, where lines after the first are indented. -/
def scalar (indent : Nat) (s : String) : List Char :=
  match styleOf s with
  | .plain => s.toList ++ ['\n']
  | .single => single indent s.toList ++ ['\n']
  | .double => double s.toList ++ ['\n']
  | .literal => literal indent s.toList

/-! ### Documents -/

/-- A key that fits on one line with its value. -/
def isSimpleKey (s : String) : Bool :=
  s.utf8ByteSize ≤ 128 && !s.toList.any isBreak

def simpleKey (s : String) : List Char :=
  match styleOf s with
  | .plain => s.toList
  | .single => single 0 s.toList
  | _ => double s.toList

/-- The text of something that is neither a list nor a record with content, up to the end of its
line. -/
def leaf? (indent : Nat) : Document → Option (List Char)
  | .null => some "null\n".toList
  | .bool b => some ((Value.boolText b).toList ++ ['\n'])
  | .number n => some (n.text.toList ++ ['\n'])
  | .text s => some (scalar indent s)
  | .list [] => some "[]\n".toList
  | .record [] => some "\x7b\x7d\n".toList
  | _ => none

/-- What follows a mark at the indentation, on the same line. -/
def afterMark (indent : Nat) (d : Document) (inner : List Char) : List Char :=
  ' ' :: (leaf? (indent + 2) d).getD inner

/-- Under a key at the indentation a list starts there, and a record two columns further. -/
def innerIndent (indent : Nat) : Document → Nat
  | .list _ => indent
  | _ => indent + 2

/-- What follows a key at the indentation. -/
def afterKey (indent : Nat) (d : Document) (inner : List Char) : List Char :=
  match leaf? (indent + 2) d with
  | some text => ' ' :: text
  | none => '\n' :: (indentation (innerIndent indent d) ++ inner)

mutual

/-- A list or record whose first line starts at the indentation, which is there already. -/
def block (indent : Nat) : Document → List Char
  | .list items => (indentation indent).intercalate (itemChars indent items)
  | .record fields => (indentation indent).intercalate (fieldChars indent fields)
  | _ => []
termination_by structural d => d

def itemChars (indent : Nat) : List Document → List (List Char)
  | [] => []
  | d :: rest => ('-' :: afterMark indent d (block (indent + 2) d)) :: itemChars indent rest
termination_by structural ds => ds

/-- A key that does not fit stands on a line of its own. -/
def fieldChars (indent : Nat) : List (String × Document) → List (List Char)
  | [] => []
  | (name, d) :: rest =>
    (if isSimpleKey name then
      simpleKey name ++ ':' :: afterKey indent d (block (innerIndent indent d) d)
    else
      ['?', ' '] ++ scalar (indent + 2) name ++ indentation indent ++
        ':' :: afterMark indent d (block (indent + 2) d)) :: fieldChars indent rest
termination_by structural fs => fs

end

def render (d : Document) : String :=
  String.ofList ((leaf? 0 d).getD (block 0 d))

end EarlyConfig.Yaml

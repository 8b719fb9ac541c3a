import EarlyConfig.Report.Document

/-! Documents as JSON text, on one line or indented by two spaces for each level. -/
namespace EarlyConfig.Json

/-- Floating point numbers with an exponent show its sign. -/
def layout : Decimal.Layout :=
  { Number.layout with plus := true }

def hexDigit (n : Nat) : Char :=
  Nat.digitChar (n % 16)

def escape (c : Char) : List Char :=
  match c with
  | '"' => ['\\', '"']
  | '\\' => ['\\', '\\']
  | '\x08' => ['\\', 'b']
  | '\x0c' => ['\\', 'f']
  | '\n' => ['\\', 'n']
  | '\r' => ['\\', 'r']
  | '\t' => ['\\', 't']
  | c =>
    if c.toNat < 0x20 then ['\\', 'u', '0', '0', hexDigit (c.toNat / 16), hexDigit c.toNat] else [c]

def quote (s : String) : List Char :=
  '"' :: (s.toList.flatMap escape ++ ['"'])

/-- How the items of a list or record are set: a break before each item and one after the last, and
what stands between a name and its value. -/
structure Style where
  indented : Bool

namespace Style

/-- The start of a line at a level. -/
def newline (style : Style) (level : Nat) : List Char :=
  if style.indented then '\n' :: List.replicate (2 * level) ' ' else []

def colon (style : Style) : List Char :=
  if style.indented then [':', ' '] else [':']

/-- Items between brackets, each at the level below. -/
def bracket (style : Style) (level : Nat) (opening closing : Char) : List (List Char) → List Char
  | [] => [opening, closing]
  | items =>
    let start := style.newline (level + 1)
    opening :: (start ++ (',' :: start).intercalate items ++ style.newline level ++ [closing])

end Style

mutual

def chars (style : Style) (level : Nat) : Document → List Char
  | .null => "null".toList
  | .bool b => (Value.boolText b).toList
  | .number n => n.render layout
  | .text s => quote s
  | .list items => style.bracket level '[' ']' (itemChars style (level + 1) items)
  | .record fields => style.bracket level '{' '}' (fieldChars style (level + 1) fields)
termination_by structural d => d

def itemChars (style : Style) (level : Nat) : List Document → List (List Char)
  | [] => []
  | d :: rest => chars style level d :: itemChars style level rest
termination_by structural ds => ds

def fieldChars (style : Style) (level : Nat) : List (String × Document) → List (List Char)
  | [] => []
  | (name, d) :: rest =>
    (quote name ++ style.colon ++ chars style level d) :: fieldChars style level rest
termination_by structural fs => fs

end

/-- The document on one line. -/
def compact (d : Document) : String :=
  String.ofList (chars ⟨false⟩ 0 d)

/-- The document over indented lines, without a line end after the last. -/
def pretty (d : Document) : String :=
  String.ofList (chars ⟨true⟩ 0 d)

end EarlyConfig.Json

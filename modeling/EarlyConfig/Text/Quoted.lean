import EarlyConfig.Text.Printable

/-! Text in quotes, as messages show it: quotes and backslashes are escaped, the usual controls have
their letters, and any other character that cannot be shown stands as its code point in braces. -/
namespace EarlyConfig.Text

def escape (c : Char) : List Char :=
  match c with
  | '"' => ['\\', '"']
  | '\\' => ['\\', '\\']
  | '\n' => ['\\', 'n']
  | '\r' => ['\\', 'r']
  | '\t' => ['\\', 't']
  | '\x00' => ['\\', '0']
  | c =>
    if isPrintable c then [c]
    else ['\\', 'u', '{'] ++ Nat.toDigits 16 c.toNat ++ ['}']

/-- The text between double quotes, with every character escaped that needs it. -/
def quote (s : String) : String :=
  String.ofList ('"' :: (s.toList.flatMap escape ++ ['"']))

end EarlyConfig.Text

/-! Cutting text at a mark. -/
namespace EarlyConfig.Text

/-- The pieces of a text between the occurrences of a character. -/
def pieces (c : Char) (s : String) : List String :=
  (s.toList.splitOn c).map String.ofList

/-- What stands before the first occurrence of a character, and what after it, if there is one. -/
def cut (c : Char) (cs : List Char) : List Char × Option (List Char) :=
  match cs.dropWhile (· ≠ c) with
  | [] => (cs, none)
  | _ :: rest => (cs.takeWhile (· ≠ c), some rest)

/-- What stands before the last occurrence of a character, and what after it, if there is one. -/
def cutLast (c : Char) (cs : List Char) : List Char × Option (List Char) :=
  match cut c cs.reverse with
  | (_, none) => (cs, none)
  | (after, some before) => (before.reverse, some after.reverse)

/-- What stands before and after the first occurrence of a mark. -/
def cutAt (mark : List Char) : List Char → Option (List Char × List Char)
  | [] => if mark.isEmpty then some ([], []) else none
  | c :: cs =>
    match mark.isPrefixOf (c :: cs) with
    | true => some ([], (c :: cs).drop mark.length)
    | false => (cutAt mark cs).map fun (before, after) => (c :: before, after)

def containsMark (mark : List Char) (cs : List Char) : Bool :=
  (cutAt mark cs).isSome

/-- The text without a mark at its beginning, if it has it there. -/
def after? (mark : List Char) (cs : List Char) : Option (List Char) :=
  if mark.isPrefixOf cs then some (cs.drop mark.length) else none

def lower (s : String) : String :=
  String.ofList (s.toList.map Char.toLower)

end EarlyConfig.Text

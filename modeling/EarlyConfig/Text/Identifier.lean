import EarlyConfig.Text.CodeRange
import EarlyConfig.Text.Letter

/-! Names: a letter or underscore, then letters, digits, marks, underscores and dashes. -/
namespace EarlyConfig.Text

def isNameStart (c : Char) : Bool :=
  c = '_' || inRanges letterRanges c

def isNamePart (c : Char) : Bool :=
  isNameStart c || c = '-' || inRanges continuingRanges c

/-- The text is a name as a whole. -/
def isIdentifier (s : String) : Bool :=
  match s.toList with
  | [] => false
  | c :: rest => isNameStart c && rest.all isNamePart

end EarlyConfig.Text

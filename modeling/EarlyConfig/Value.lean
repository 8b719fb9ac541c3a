import EarlyConfig.Entries
import EarlyConfig.Text.Quoted
import EarlyConfig.Ty

/-! Values. Literal expressions give tuples and objects; lists, sets and maps come from conversion
to a type. An unknown value is one that exists but could not be determined. -/
namespace EarlyConfig

inductive Value where
  | null
  | unknown (type : Ty)
  | bool (b : Bool)
  | number (n : Number)
  | text (s : String)
  | list (elements : List Value)
  | set (elements : List Value)
  | tuple (elements : List Value)
  | map (entries : List (String × Value))
  | object (entries : List (String × Value))

namespace Value

instance : Inhabited Value := ⟨.null⟩

def isNull : Value → Bool
  | .null => true
  | _ => false

def isKnown : Value → Bool
  | .unknown _ => false
  | _ => true

def text? : Value → Option String
  | .text s => some s
  | _ => none

def bool? : Value → Option Bool
  | .bool b => some b
  | _ => none

def number? : Value → Option Number
  | .number n => some n
  | _ => none

def elements? : Value → Option (List Value)
  | .list elements => some elements
  | .set elements => some elements
  | .tuple elements => some elements
  | _ => none

def entries? : Value → Option (List (String × Value))
  | .map entries => some entries
  | .object entries => some entries
  | _ => none

/-- The name of the kind of value. -/
def kind : Value → String
  | .null => "null"
  | .unknown _ => "unknown"
  | .bool _ => "bool"
  | .number _ => "number"
  | .text _ => "string"
  | .list _ => "list"
  | .set _ => "set"
  | .tuple _ => "tuple"
  | .map _ => "map"
  | .object _ => "object"

/-! ### Text -/

def boolText (b : Bool) : String :=
  if b then "true" else "false"

mutual

/-- The value as it is shown: quoted strings, bare keys, and a word for what is not a literal. -/
def chars : Value → List Char
  | .null => "null".toList
  | .unknown type => "(unknown ".toList ++ type.chars ++ [')']
  | .bool b => (boolText b).toList
  | .number n => n.text.toList
  | .text s => (Text.quote s).toList
  | .list elements => '[' :: ([',', ' '].intercalate (elementChars elements) ++ [']'])
  | .tuple elements => '[' :: ([',', ' '].intercalate (elementChars elements) ++ [']'])
  | .set elements =>
    "toset([".toList ++ [',', ' '].intercalate (elementChars elements) ++ [']', ')']
  | .map entries => '{' :: ([',', ' '].intercalate (entryChars entries) ++ ['}'])
  | .object entries => '{' :: ([',', ' '].intercalate (entryChars entries) ++ ['}'])
termination_by structural v => v

def elementChars : List Value → List (List Char)
  | [] => []
  | v :: rest => v.chars :: elementChars rest
termination_by structural vs => vs

def entryChars : List (String × Value) → List (List Char)
  | [] => []
  | (k, v) :: rest => (k.toList ++ " = ".toList ++ v.chars) :: entryChars rest
termination_by structural es => es

end

def display (v : Value) : String :=
  String.ofList v.chars

/-! ### Equality -/

mutual

/-- Equality that does not look at the order of entries, at any depth. -/
def same : Value → Value → Bool
  | .null, .null => true
  | .unknown s, .unknown t => s.same t
  | .bool a, .bool b => a = b
  | .number m, .number n => m.same n
  | .text s, .text t => s = t
  | .list vs, .list ws => sameElements vs ws
  | .set vs, .set ws => sameElements vs ws
  | .tuple vs, .tuple ws => sameElements vs ws
  | .map es, .map fs => es.length = fs.length && sameEntries es fs
  | .object es, .object fs => es.length = fs.length && sameEntries es fs
  | _, _ => false
termination_by structural v => v

def sameElements : List Value → List Value → Bool
  | [], [] => true
  | v :: vs, w :: ws => v.same w && sameElements vs ws
  | _, _ => false
termination_by structural vs => vs

def sameEntries : List (String × Value) → List (String × Value) → Bool
  | [], _ => true
  | (k, v) :: rest, fs =>
    (match Entries.get? k fs with
      | some w => v.same w
      | none => false) && sameEntries rest fs
termination_by structural es => es

end

/-- Of values that are equal, the first. -/
def distinct (vs : List Value) : List Value :=
  vs.foldl (fun kept v => if kept.any (·.same v) then kept else kept ++ [v]) []

end Value

end EarlyConfig

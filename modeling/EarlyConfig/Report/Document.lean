import EarlyConfig.Entries
import EarlyConfig.Value

/-! Reports as trees of data, the common form behind the text formats. -/
namespace EarlyConfig

inductive Document where
  | null
  | bool (b : Bool)
  | number (n : Number)
  | text (s : String)
  | list (items : List Document)
  /-- Fields in the order in which they are written; a name may come twice. -/
  | record (fields : List (String × Document))

namespace Document

def ofNat (n : Nat) : Document :=
  .number (.int n)

def ofOption (f : α → Document) : Option α → Document
  | none => .null
  | some a => f a

def texts (ss : List String) : Document :=
  .list (ss.map .text)

mutual

/-- The document in which each record keeps of fields with one name the last. -/
def merged : Document → Document
  | .list items => .list (mergedItems items)
  | .record fields => .record (Entries.ofList (mergedFields fields))
  | d => d
termination_by structural d => d

def mergedItems : List Document → List Document
  | [] => []
  | d :: rest => d.merged :: mergedItems rest
termination_by structural ds => ds

def mergedFields : List (String × Document) → List (String × Document)
  | [] => []
  | (name, d) :: rest => (name, d.merged) :: mergedFields rest
termination_by structural fs => fs

end

end Document

mutual

/-- Values as data. Null and unknown values have no representation of their own. -/
def Value.document : Value → Document
  | .null => .null
  | .unknown _ => .null
  | .bool b => .bool b
  | .number n => .number n
  | .text s => .text s
  | .list vs => .list (elementDocuments vs)
  | .set vs => .list (elementDocuments vs)
  | .tuple vs => .list (elementDocuments vs)
  | .map es => .record (entryDocuments es)
  | .object es => .record (entryDocuments es)
termination_by structural v => v

def elementDocuments : List Value → List Document
  | [] => []
  | v :: rest => v.document :: elementDocuments rest
termination_by structural vs => vs

def entryDocuments : List (String × Value) → List (String × Document)
  | [] => []
  | (k, v) :: rest => (k, v.document) :: entryDocuments rest
termination_by structural es => es

end

end EarlyConfig

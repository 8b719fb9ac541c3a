import EarlyConfig.Value

/-! Default values of optional attributes, nested along a type. -/
namespace EarlyConfig

/-- The defaults that belong to a type. A child is keyed by the name of an attribute, by the
position in a tuple, or by the empty text for the elements of a list, set or map. -/
structure Defaults where
  type : Ty
  values : List (String × Value)
  children : List (String × Defaults)

namespace Defaults

def isEmpty (d : Defaults) : Bool :=
  d.values.isEmpty && d.children.isEmpty

/-- Defaults that say something. -/
def orNone (d : Defaults) : Option Defaults :=
  if d.isEmpty then none else some d

/-! ### Filling in -/

/-- Puts the defaults of attributes that are missing or null. -/
def fillMissing (values : List (String × Value)) (es : List (String × Value)) :
    List (String × Value) :=
  values.foldl
    (fun acc d =>
      if ((Entries.get? d.1 acc).getD .null).isNull then Entries.put d.1 d.2 acc else acc) es

/-- What a child does to the value under its key. -/
def childAt (children : List (String × (Value → Value))) (k : String) (v : Value) : Value :=
  match Entries.get? k children with
  | some f => f v
  | none => v

def fillElements (type : Ty) (children : List (String × (Value → Value))) (vs : List Value) :
    List Value :=
  match type with
  | .tuple _ => vs.mapIdx fun i v => childAt children (Decimal.natText i) v
  | .list _ => vs.map (childAt children "")
  | .set _ => vs.map (childAt children "")
  | _ => vs

def fillEntries (type : Ty) (values : List (String × Value))
    (children : List (String × (Value → Value))) (es : List (String × Value)) :
    List (String × Value) :=
  match type with
  | .object _ => (fillMissing values es).map fun e => (e.1, childAt children e.1 e.2)
  | .map _ => es.map fun e => (e.1, childAt children "" e.2)
  | _ => es

/-- One level of filling in, given what the children do. -/
def fill (type : Ty) (values : List (String × Value)) (children : List (String × (Value → Value))) :
    Value → Value
  | .object es => .object (fillEntries type values children es)
  | .map es => .map (fillEntries type values children es)
  | .tuple vs => .tuple (fillElements type children vs)
  | .list vs => .list (fillElements type children vs)
  | .set vs => .set (fillElements type children vs)
  | v => v

mutual

/-- Fills in the optional attributes that are missing or null, at every depth. A value of another
shape than the type is left alone. -/
def apply : Defaults → Value → Value
  | ⟨type, values, children⟩, v => fill type values (applyAll children) v
termination_by structural d => d

def applyAll : List (String × Defaults) → List (String × (Value → Value))
  | [] => []
  | (k, d) :: rest => (k, fun v => d.apply v) :: applyAll rest
termination_by structural ds => ds

end

/-- Filling in with defaults that may be absent. -/
def applyTo (d : Option Defaults) (v : Value) : Value :=
  match d with
  | some d => d.apply v
  | none => v

end Defaults

end EarlyConfig

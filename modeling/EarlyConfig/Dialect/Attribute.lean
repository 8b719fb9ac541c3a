import EarlyConfig.Conversion
import EarlyConfig.Literal.Eval
import EarlyConfig.Schema.Basic

/-! Attributes as literals. An expression that has no value of its own is taken as absent; a value
that does not fit is reported. -/
namespace EarlyConfig.Hcl

namespace Attribute

def literal? (a : Attribute) : Option Value :=
  a.value.value.literal?

def misfit (file : String) (a : Attribute) (e : ConversionError) : Diagnostic :=
  .error "Incorrect attribute value type"
    ("Inappropriate value for attribute " ++ Text.quote a.name ++ ": " ++ e.message ++ ".")
    (a.range file)

/-- The value converted to a type. Null counts as absent. -/
def decode (file : String) (t : Ty) (a : Attribute) : Diagnosed (Option Value) :=
  match a.literal? with
  | none => pure none
  | some v =>
    if v.isNull then pure none
    else
      match v.convert t with
      | .ok w => pure (some w)
      | .error e => .reject (a.misfit file e)

def string? (file : String) (a : Attribute) : Diagnosed (Option String) := do
  return (← a.decode file .string).bind Value.text?

def bool? (file : String) (a : Attribute) : Diagnosed (Option Bool) := do
  return (← a.decode file .bool).bind Value.bool?

/-- The names among the keys of an object constructor. -/
def keyNames (a : Attribute) : List String :=
  match a.value.value with
  | .object items => items.filterMap fun (key, _) => key.value.keyName?
  | _ => []

/-- These names in ascending order, each once. -/
def objectKeys (a : Attribute) : List String :=
  (a.keyNames.mergeSort (· ≤ ·)).eraseReps

end Attribute

namespace Body

def string? (file : String) (b : Body) (name : String) : Diagnosed (Option String) :=
  match b.attribute? name with
  | none => pure none
  | some a => a.string? file

/-- The text of an attribute and the place where it stands. -/
def placed? (file : String) (b : Body) (name : String) : Diagnosed (Option (Placed String)) := do
  match b.attribute? name with
  | none => return none
  | some a => return (← a.string? file).map fun text => ⟨text, a.range file⟩

/-- The text of an attribute, empty without one. -/
def string (file : String) (b : Body) (name : String) : Diagnosed String := do
  return (← b.string? file name).getD ""

/-- The truth value of an attribute, false without one. -/
def bool (file : String) (b : Body) (name : String) : Diagnosed Bool := do
  match b.attribute? name with
  | none => return false
  | some a => return (← a.bool? file).getD false

/-- The text of an attribute that is a string as it stands, else empty. -/
def literalString (b : Body) (name : String) : String :=
  (((b.attribute? name).bind Attribute.literal?).bind Value.text?).getD ""

def objectKeys (b : Body) (name : String) : List String :=
  ((b.attribute? name).map Attribute.objectKeys).getD []

/-- The names of all attributes but those excluded, in ascending order and each once. -/
def attributeNamesExcept (b : Body) (excluded : List String) : List String :=
  ((b.attributeNames.filter fun name => !excluded.contains name).mergeSort (· ≤ ·)).eraseReps

end Body

/-- The label that names a block, which has to be there. -/
def Block.name? (file : String) (n : Nat) (b : Block) : Diagnosed (Option String) :=
  if (b.label n).isEmpty then
    .reject {
      severity := .error
      summary := "Invalid " ++ b.kind ++ " name"
      detail := "A " ++ b.kind ++ " block requires a non-empty name label."
      subject := (b.labelRanges file)[n]?
      context := some (b.range file) }
  else pure (some (b.label n))

end EarlyConfig.Hcl

import EarlyConfig.Defaults
import EarlyConfig.Dialect.Attribute
import EarlyConfig.TypeExpr

/-! Input variables, which are the same in every dialect that has them. -/
namespace EarlyConfig

structure Variable where
  type : Ty
  description : String
  sensitive : Bool
  ephemeral : Bool
  default? : Option Value
  typeDefaults : Option Defaults

namespace Variable

open Hcl (Attribute Body)

/-! ### Types -/

def quotedType (hint : String) (range : SourceRange) : Diagnostic where
  severity := .warning
  summary := "Quoted type constraints are deprecated"
  detail :=
    "Terraform 0.11 and earlier required type constraints to be given in quotes, but that form " ++
      "is now deprecated. Remove the quotes around " ++ Text.quote hint ++ "."
  subject := some range

def invalidHint (range : SourceRange) : Diagnostic :=
  .error "Invalid legacy variable type hint"
    ("The legacy variable type hint form, using a quoted string, allows only the values " ++
      "\"string\", \"list\", and \"map\". To provide a full type expression, remove the " ++
      "surrounding quotes and give the type expression directly.")
    range

/-- The type that an attribute gives, and its defaults. A type that makes no sense stands for any.
-/
def decodeType (file : String) (a : Attribute) : Diagnosed (Ty × Option Defaults) := do
  match a.value.value with
  | .text hint =>
    match TypeExpr.legacyHint? hint with
    | some t =>
      .report (quotedType hint (a.range file))
      return (t, none)
    | none =>
      .report (invalidHint (a.range file))
      return (.any, none)
  | e =>
    match TypeExpr.read e with
    | .ok decoded => return decoded
    | .error err =>
      .report (.error "Invalid type specification" err.message (a.range file))
      return (.any, none)

def decodeTypeOf (file : String) (b : Body) : Diagnosed (Ty × Option Defaults) :=
  match b.attribute? "type" with
  | none => pure (.any, none)
  | some a => decodeType file a

/-! ### Defaults -/

def invalidDefault (file : String) (a : Attribute) (e : ConversionError) : Diagnostic :=
  .error "Invalid default value for variable"
    ("This default value is not compatible with the variable's type constraint: " ++ e.message ++
      ".")
    (a.range file)

/-- The default value in the type of the variable, with the defaults of the type filled in. One that
does not fit is there but unknown. -/
def decodeDefault (file : String) (t : Ty) (defaults : Option Defaults) (a : Attribute) :
    Diagnosed (Option Value) := do
  match a.literal? with
  | none => return none
  | some v =>
    match (Defaults.applyTo defaults v).convert t with
    | .ok w => return some w
    | .error e =>
      .report (invalidDefault file a e)
      return some (.unknown .any)

def decode (file : String) (b : Body) : Diagnosed Variable := do
  let description ← b.string file "description"
  let (type, typeDefaults) ← decodeTypeOf file b
  let sensitive ← b.bool file "sensitive"
  let ephemeral ← b.bool file "ephemeral"
  let default? ← match b.attribute? "default" with
    | none => pure none
    | some a => decodeDefault file type typeDefaults a
  return { type, description, sensitive, ephemeral, default?, typeDefaults }

end Variable

end EarlyConfig

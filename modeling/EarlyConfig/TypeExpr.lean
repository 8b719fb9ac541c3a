import EarlyConfig.Conversion
import EarlyConfig.Defaults
import EarlyConfig.Literal.Eval

/-! Type expressions: what an expression such as `list(object({ size = optional(number, 80) }))`
says about values, as a type and the defaults of its optional attributes. -/
namespace EarlyConfig

/-- Why an expression is no type. -/
inductive TypeExprError where
  /-- A collection without its one argument. -/
  | elementMissing (constructor : String)
  | tupleElementsMissing
  | objectAttributesMissing
  | optionalMisplaced
  | unknownConstructor (name : String)
  | unknownKeyword (name : String)
  | notType
  | keyNotName
  | optionalArguments
  | defaultNotLiteral (name : String)
  | defaultMismatch (name : String) (error : ConversionError)

def TypeExprError.message : TypeExprError → String
  | .elementMissing name =>
    "The " ++ name ++ " type constructor requires one argument specifying the element type."
  | .tupleElementsMissing =>
    "The tuple type constructor requires one argument specifying the element types as a list."
  | .objectAttributesMissing =>
    "The object type constructor requires one argument specifying the attribute types as a map."
  | .optionalMisplaced =>
    "Keyword \"optional\" is valid only as a modifier for object type attributes."
  | .unknownConstructor name =>
    "Keyword " ++ Text.quote name ++ " is not a valid type constructor."
  | .unknownKeyword name =>
    "The keyword " ++ Text.quote name ++ " is not a valid type specification."
  | .notType =>
    "A type specification is either a primitive type keyword (bool, number, string) or a " ++
      "complex type constructor call, like list(string)."
  | .keyNotName => "Object constructor map keys must be attribute names."
  | .optionalArguments =>
    "Optional attribute modifier expects at most two arguments: the attribute type, and a " ++
      "default value."
  | .defaultNotLiteral name =>
    "Default value for optional attribute " ++ Text.quote name ++ " must be a literal value."
  | .defaultMismatch name error =>
    "Invalid default value for optional attribute " ++ Text.quote name ++ ": " ++ error.message ++
      "."

namespace TypeExpr

abbrev Decoded := Except TypeExprError

/-- The type that a bare word names. -/
def keyword : String → Decoded Ty
  | "any" => .ok .any
  | "string" => .ok .string
  | "number" => .ok .number
  | "bool" => .ok .bool
  | "list" => .error (.elementMissing "list")
  | "set" => .error (.elementMissing "set")
  | "map" => .error (.elementMissing "map")
  | "object" => .error .objectAttributesMissing
  | "tuple" => .error .tupleElementsMissing
  | name => .error (.unknownKeyword name)

/-- What is wrong with a call that is no type. -/
def callError : String → TypeExprError
  | "list" => .elementMissing "list"
  | "set" => .elementMissing "set"
  | "map" => .elementMissing "map"
  | "tuple" => .tupleElementsMissing
  | "object" => .objectAttributesMissing
  | "optional" => .optionalMisplaced
  | name => .unknownConstructor name

/-- The defaults of a collection, from those of its elements. -/
def ofElement (type : Ty) (element : Option Defaults) : Option Defaults :=
  element.map fun child => ⟨type, [], [("", child)]⟩

/-! ### Attributes of an object type -/

/-- The attributes read so far, with their defaults. -/
structure Attributes where
  fields : List (Field Ty)
  values : List (String × Value)
  children : List (String × Defaults)

/-- One attribute as its entry spells it. -/
structure Attribute where
  name : String
  optional : Bool
  type : Ty
  value : Option Value
  child : Option Defaults

/-- A declared name keeps its place and, once optional, stays so; it gets the new type. -/
def putField (name : String) (optional : Bool) (type : Ty) : List (Field Ty) → List (Field Ty)
  | [] => [⟨name, optional, type⟩]
  | f :: rest =>
    if f.name = name then ⟨name, f.optional || optional, type⟩ :: rest
    else f :: putField name optional type rest

def Attributes.add (as : Attributes) (a : Attribute) : Attributes where
  fields := putField a.name a.optional a.type as.fields
  values := match a.value with
    | some v => Entries.put a.name v as.values
    | none => as.values
  children := match a.child with
    | some d => Entries.put a.name d as.children
    | none => as.children

def Attributes.finish (as : Attributes) : Ty × Option Defaults :=
  let type := Ty.object as.fields
  (type, (Defaults.mk type as.values as.children).orNone)

/-- The default of an optional attribute: a literal, filled in by the defaults inside the
attribute's type and converted to that type. -/
def defaultValue (name : String) (type : Ty) (child : Option Defaults) (e : Hcl.Expr) :
    Decoded Value :=
  match e.literal? with
  | none => .error (.defaultNotLiteral name)
  | some v => (Value.convert type (Defaults.applyTo child v)).mapError (.defaultMismatch name)

/-! ### Reading -/

open Hcl

mutual

/-- The type that an expression says, and the defaults in it. -/
def read : Expr → Decoded (Ty × Option Defaults)
  | .variable name => do
    return (← keyword name, none)
  | .paren inner => read inner
  | .call "list" [e] _ => do
    let (t, d) ← read e
    return (.list t, ofElement (.list t) d)
  | .call "set" [e] _ => do
    let (t, d) ← read e
    return (.set t, ofElement (.set t) d)
  | .call "map" [e] _ => do
    let (t, d) ← read e
    return (.map t, ofElement (.map t) d)
  | .call "tuple" [.list items] _ => do
    let read ← readElements 0 items
    let type := Ty.tuple (read.map (·.1))
    return (type, (Defaults.mk type [] (read.filterMap (·.2))).orNone)
  | .call "object" [.object entries] _ => do
    return (← readAttributes ⟨[], [], []⟩ entries).finish
  | .call name _ _ => .error (callError name)
  | _ => .error .notType
termination_by structural e => e

/-- The types of a tuple's elements, the first of them at this index, with the defaults by index. -/
def readElements : Nat → List (Located Expr) → Decoded (List (Ty × Option (String × Defaults)))
  | _, [] => .ok []
  | i, ⟨e, _⟩ :: rest => do
    let (t, d) ← read e
    return (t, d.map (Decimal.natText i, ·)) :: (← readElements (i + 1) rest)
termination_by structural _ items => items

def readAttributes (as : Attributes) : List (Located Expr × Located Expr) → Decoded Attributes
  | [] => .ok as
  | (key, e) :: rest => do
    match key.value.keyName? with
    | none => .error .keyNotName
    | some name => readAttributes (as.add (← readAttribute name e)) rest
termination_by structural entries => entries

/-- One attribute: a type, or a type marked as optional with or without a default. -/
def readAttribute (name : String) : Located Expr → Decoded Attribute
  | ⟨.call "optional" [e] _, _⟩ => do
    let (t, d) ← read e
    return ⟨name, true, t, none, d⟩
  | ⟨.call "optional" [e, default] _, _⟩ => do
    let (t, d) ← read e
    return ⟨name, true, t, some (← defaultValue name t d default), d⟩
  | ⟨.call "optional" _ _, _⟩ => .error .optionalArguments
  | ⟨e, _⟩ => do
    let (t, d) ← read e
    return ⟨name, false, t, none, d⟩
termination_by structural e => e

end

/-- The types that could once be given in quotes. -/
def legacyHint? : String → Option Ty
  | "string" => some .string
  | "list" => some (.list .any)
  | "map" => some (.map .any)
  | _ => none

end TypeExpr

end EarlyConfig

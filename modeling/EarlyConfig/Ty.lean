import EarlyConfig.Number.Basic

/-! Type constraints: what a value may be, from a primitive kind to an object with named attributes,
some of them optional. -/
namespace EarlyConfig

/-- An attribute that an object type declares. -/
structure Field (α : Type) where
  name : String
  optional : Bool
  type : α

inductive Ty where
  /-- Every value. -/
  | any
  | string
  | number
  | bool
  | list (element : Ty)
  | set (element : Ty)
  | map (element : Ty)
  | tuple (elements : List Ty)
  | object (fields : List (Field Ty))

namespace Ty

instance : Inhabited Ty := ⟨.any⟩

/-! ### Text -/

mutual

/-- The type as a type expression. -/
def chars : Ty → List Char
  | .any => "any".toList
  | .string => "string".toList
  | .number => "number".toList
  | .bool => "bool".toList
  | .list element => "list(".toList ++ element.chars ++ [')']
  | .set element => "set(".toList ++ element.chars ++ [')']
  | .map element => "map(".toList ++ element.chars ++ [')']
  | .tuple elements =>
    "tuple([".toList ++ [',', ' '].intercalate (elementChars elements) ++ [']', ')']
  | .object fields =>
    "object(\x7b".toList ++ [',', ' '].intercalate (fieldChars fields) ++ ['}', ')']
termination_by structural t => t

def elementChars : List Ty → List (List Char)
  | [] => []
  | t :: rest => t.chars :: elementChars rest
termination_by structural ts => ts

def fieldChars : List (Field Ty) → List (List Char)
  | [] => []
  | ⟨name, optional, type⟩ :: rest =>
    (name.toList ++ " = ".toList ++
      if optional then "optional(".toList ++ type.chars ++ [')'] else type.chars) :: fieldChars rest
termination_by structural fs => fs

end

def text (t : Ty) : String :=
  String.ofList t.chars

/-! ### Equality up to the order of attributes -/

def field? (name : String) (fields : List (Field Ty)) : Option (Field Ty) :=
  fields.find? fun f => f.name = name

mutual

/-- Equality that does not look at the order in which attributes are declared. -/
def same : Ty → Ty → Bool
  | .any, .any => true
  | .string, .string => true
  | .number, .number => true
  | .bool, .bool => true
  | .list s, .list t => s.same t
  | .set s, .set t => s.same t
  | .map s, .map t => s.same t
  | .tuple ss, .tuple ts => sameElements ss ts
  | .object fs, .object gs => fs.length = gs.length && sameFields fs gs
  | _, _ => false
termination_by structural t => t

def sameElements : List Ty → List Ty → Bool
  | [], [] => true
  | s :: ss, t :: ts => s.same t && sameElements ss ts
  | _, _ => false
termination_by structural ts => ts

def sameFields : List (Field Ty) → List (Field Ty) → Bool
  | [], _ => true
  | ⟨name, optional, type⟩ :: rest, gs =>
    (match field? name gs with
      | some g => optional = g.optional && type.same g.type
      | none => false) && sameFields rest gs
termination_by structural fs => fs

end

end Ty

end EarlyConfig

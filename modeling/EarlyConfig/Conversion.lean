import EarlyConfig.Value

/-! Conversion of values to types. Null converts to every type and an unknown value becomes an
unknown value of the type; attributes that an object type does not declare are dropped. An error
says where in the value it arose, by the first culprit in the order of elements, entries or declared
attributes. -/
namespace EarlyConfig

inductive PathStep where
  | attr (name : String)
  | index (n : Nat)
  | key (s : String)
deriving DecidableEq

/-- Why a value does not fit a type. -/
inductive Mismatch where
  | stringRequired
  | numberRequired
  /-- A text that spells no number. -/
  | notNumeric
  | boolRequired
  /-- A text that spells no truth value. -/
  | notBoolean
  | listRequired (element : Ty)
  | setRequired (element : Ty)
  | mapRequired (element : Ty)
  | tupleRequired
  | tupleLength (expected : Nat)
  | objectRequired
  | attributeMissing (name : String)

def Mismatch.message : Mismatch → String
  | .stringRequired => "string required"
  | .numberRequired => "number required"
  | .notNumeric => "a number is required"
  | .boolRequired => "bool required"
  | .notBoolean => "a bool is required"
  | .listRequired element => "list of " ++ element.text ++ " required"
  | .setRequired element => "set of " ++ element.text ++ " required"
  | .mapRequired element => "map of " ++ element.text ++ " required"
  | .tupleRequired => "tuple required"
  | .tupleLength n => "tuple required with exactly " ++ Decimal.natText n ++ " elements"
  | .objectRequired => "object required"
  | .attributeMissing name => "attribute " ++ Text.quote name ++ " is required"

structure ConversionError where
  path : List PathStep
  reason : Mismatch

namespace PathStep

def text : PathStep → String
  | .attr name => "." ++ name
  | .index n => "[" ++ Decimal.natText n ++ "]"
  | .key s => "[" ++ Text.quote s ++ "]"

end PathStep

namespace ConversionError

/-- The path, if there is one, and the reason. -/
def message (e : ConversionError) : String :=
  match e.path with
  | [] => e.reason.message
  | path => String.join (path.map PathStep.text) ++ ": " ++ e.reason.message

def within (step : PathStep) (e : ConversionError) : ConversionError :=
  { e with path := step :: e.path }

end ConversionError

namespace Value

abbrev Converted := Except ConversionError

def mismatch (m : Mismatch) : Converted α :=
  .error ⟨[], m⟩

/-- Converts elements one after another, the first of them at this index. -/
def convertElements (f : Value → Converted Value) : Nat → List Value → Converted (List Value)
  | _, [] => .ok []
  | i, v :: rest => do
    let w ← (f v).mapError (·.within (.index i))
    return w :: (← convertElements f (i + 1) rest)

def convertEntries (f : Value → Converted Value) :
    List (String × Value) → Converted (List (String × Value))
  | [] => .ok []
  | (k, v) :: rest => do
    let w ← (f v).mapError (·.within (.key k))
    return (k, w) :: (← convertEntries f rest)

def toText : Value → Converted Value
  | .text s => .ok (.text s)
  | .number n => .ok (.text n.text)
  | .bool b => .ok (.text (boolText b))
  | _ => mismatch .stringRequired

def toNumber : Value → Converted Value
  | .number n => .ok (.number n)
  | .text s =>
    match Number.ofText? s with
    | some n => .ok (.number n)
    | none => mismatch .notNumeric
  | _ => mismatch .numberRequired

def toBool : Value → Converted Value
  | .bool b => .ok (.bool b)
  | .text "true" => .ok (.bool true)
  | .text "false" => .ok (.bool false)
  | .text _ => mismatch .notBoolean
  | _ => mismatch .boolRequired

mutual

/-- The value as one of the type. -/
def convert : Ty → Value → Converted Value
  | _, .null => .ok .null
  | t, .unknown _ => .ok (.unknown t)
  | .any, v => .ok v
  | .string, v => v.toText
  | .number, v => v.toNumber
  | .bool, v => v.toBool
  | .list t, v =>
    match v.elements? with
    | some vs => return .list (← convertElements (fun w => convert t w) 0 vs)
    | none => mismatch (.listRequired t)
  | .set t, v =>
    match v.elements? with
    | some vs => return .set (distinct (← convertElements (fun w => convert t w) 0 vs))
    | none => mismatch (.setRequired t)
  | .map t, v =>
    match v.entries? with
    | some es => return .map (← convertEntries (fun w => convert t w) es)
    | none => mismatch (.mapRequired t)
  | .tuple ts, v =>
    match v.elements? with
    | some vs =>
      if vs.length = ts.length then return .tuple (← convertTuple 0 ts vs)
      else mismatch (.tupleLength ts.length)
    | none => mismatch .tupleRequired
  | .object fields, v =>
    match v.entries? with
    | some es => return .object (← convertFields fields es)
    | none => mismatch .objectRequired
termination_by structural t => t

/-- Converts each element to the type at its place, the first of them at this index. -/
def convertTuple : Nat → List Ty → List Value → Converted (List Value)
  | i, t :: ts, v :: vs => do
    let w ← (convert t v).mapError (·.within (.index i))
    return w :: (← convertTuple (i + 1) ts vs)
  | _, _, _ => .ok []
termination_by structural _ ts => ts

/-- The declared attributes in their order. An optional one that is missing becomes null. -/
def convertFields : List (Field Ty) → List (String × Value) → Converted (List (String × Value))
  | [], _ => .ok []
  | ⟨name, optional, type⟩ :: rest, es =>
    match Entries.get? name es with
    | some v => do
      let w ← (convert type v).mapError (·.within (.attr name))
      return (name, w) :: (← convertFields rest es)
    | none =>
      if optional then return (name, .null) :: (← convertFields rest es)
      else mismatch (.attributeMissing name)
termination_by structural fields => fields

end

end Value

end EarlyConfig

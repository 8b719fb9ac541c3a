import EarlyConfig.Diagnostic
import EarlyConfig.Hcl.Body
import EarlyConfig.Text.Quoted

/-! Schemas: the attributes and blocks that are of interest at one level of a configuration.
`select` keeps just those of a body. What a schema does not list is dropped without a word; what it
lists is reported if it has the wrong form. -/
namespace EarlyConfig

namespace Hcl

namespace Attribute

def name (a : Attribute) : String :=
  a.key.value

/-- The place of the value. -/
def range (file : String) (a : Attribute) : SourceRange :=
  .ofSpan file a.value.span

end Attribute

namespace Block

def kind (b : Block) : String :=
  b.header.kind.value

def labels (b : Block) : List String :=
  b.header.labels.map (·.value)

/-- The label at a place, empty if there is none. -/
def label (b : Block) (n : Nat) : String :=
  b.labels.getD n ""

/-- The place of the type and the labels. -/
def range (file : String) (b : Block) : SourceRange :=
  .ofSpan file b.header.span

def labelRanges (file : String) (b : Block) : List SourceRange :=
  b.header.labels.map fun l => .ofSpan file l.span

end Block

/-- The attribute of a name; of several the last. -/
def Body.attribute? (b : Body) (name : String) : Option Attribute :=
  (b.attributes.filter fun a => a.name = name).getLast?

end Hcl

structure AttributeSchema where
  name : String
  required : Bool := false
deriving DecidableEq, Repr

structure BlockSchema where
  kind : String
  /-- What the labels stand for. -/
  labels : List String := []
deriving DecidableEq, Repr

structure Schema where
  attributes : List AttributeSchema := []
  blocks : List BlockSchema := []
deriving DecidableEq, Repr

namespace Schema

open Hcl (Attribute Block Body Item)

def listsAttribute (s : Schema) (name : String) : Bool :=
  s.attributes.any fun a => a.name = name

def block? (s : Schema) (kind : String) : Option BlockSchema :=
  s.blocks.find? fun b => b.kind = kind

/-! ### Complaints -/

def unexpectedAttribute (file : String) (a : Attribute) : Diagnostic :=
  let name := Text.quote a.name
  .error "Unsupported argument"
    ("An argument named " ++ name ++ " is not expected here. " ++
      "Did you mean to define a block of type " ++ name ++ "?")
    (.ofSpan file a.key.span)

def unexpectedBlock (file : String) (b : Block) : Diagnostic :=
  let kind := Text.quote b.kind
  .error "Unsupported block type"
    ("Blocks of type " ++ kind ++ " are not expected here. " ++
      "Did you mean to define argument " ++ kind ++ "? " ++
      "If so, use the equals sign to assign it a value.")
    (.ofSpan file b.header.kind.span)

def BlockSchema.count (b : BlockSchema) : String :=
  Decimal.natText b.labels.length ++ " labels (" ++ ", ".intercalate b.labels ++ ")"

def missingLabel (file : String) (expected : BlockSchema) (missing : String) (b : Block) :
    Diagnostic where
  severity := .error
  summary := "Missing " ++ missing ++ " for " ++ expected.kind
  detail := "All " ++ expected.kind ++ " blocks must have " ++ BlockSchema.count expected ++ "."
  subject := some (.ofSpan file b.header.kind.span)
  context := some (b.range file)

def extraneousLabel (file : String) (expected : BlockSchema) (extra : Hcl.Located String)
    (b : Block) : Diagnostic where
  severity := .error
  summary := "Extraneous label for " ++ expected.kind
  detail :=
    if expected.labels.isEmpty then "No labels are expected for " ++ expected.kind ++ " blocks."
    else
      "Only " ++ BlockSchema.count expected ++ " are expected for " ++ expected.kind ++ " blocks."
  subject := some (.ofSpan file extra.span)
  context := some (b.range file)

def missingAttribute (name : String) : Diagnostic where
  severity := .error
  summary := "Missing required argument"
  detail := "The argument " ++ Text.quote name ++ " is required, but no definition was found."

/-- What is wrong with the number of labels, if anything. -/
def labelProblem (file : String) (expected : BlockSchema) (b : Block) : Option Diagnostic :=
  let given := b.header.labels
  match expected.labels.drop given.length, given.drop expected.labels.length with
  | missing :: _, _ => some (missingLabel file expected missing b)
  | [], extra :: _ => some (extraneousLabel file expected extra b)
  | [], [] => none

def problem (s : Schema) (file : String) : Item → Option Diagnostic
  | .attr a =>
    if !s.listsAttribute a.name && (s.block? a.name).isSome then some (unexpectedAttribute file a)
    else none
  | .block header body =>
    let b : Block := ⟨header, body⟩
    match s.block? b.kind with
    | some expected => labelProblem file expected b
    | none => if s.listsAttribute b.kind then some (unexpectedBlock file b) else none

/-- The required attributes that a body does not have. -/
def missing (s : Schema) (body : Body) : List String :=
  (s.attributes.filter fun a => a.required && (body.attribute? a.name).isNone).map (·.name)

/-! ### Selection -/

/-- Whether an item is listed, with as many labels as it should have. -/
def admits (s : Schema) : Item → Bool
  | .attr a => s.listsAttribute a.name
  | .block header _ =>
    (s.block? header.kind.value).any fun b => b.labels.length = header.labels.length

/-- The items of a body that the schema admits, in order. The complaints about the others come in
the order of the body, and after them those about missing attributes. -/
def select (s : Schema) (file : String) (body : Body) : Diagnosed Body :=
  ⟨body.filter s.admits, body.filterMap (s.problem file) ++ (s.missing body).map missingAttribute⟩

end Schema

end EarlyConfig

import EarlyConfig.Literal.Eval
import EarlyConfig.Text.Identifier
import EarlyConfig.Text.Split

/-! Names of provider configurations within a configuration, such as `aws` and `aws.east`. -/
namespace EarlyConfig

/-- A provider by its local name and the alias of one of its configurations; the default one has the
empty alias. -/
structure ProviderRef where
  localName : String
  aliasName : String
deriving DecidableEq, Repr

namespace ProviderRef

def ofName (localName : String) : ProviderRef :=
  ⟨localName, ""⟩

def text (r : ProviderRef) : String :=
  if r.aliasName.isEmpty then r.localName else r.localName ++ "." ++ r.aliasName

instance : Ord ProviderRef :=
  ⟨compareLex (compareOn localName) (compareOn aliasName)⟩

instance : Std.TransOrd ProviderRef :=
  inferInstanceAs (Std.TransCmp (compareLex (compareOn localName) _))

instance : Std.LawfulEqOrd ProviderRef where
  eq_of_compare {p q} h := by
    change compareLex _ _ p q = .eq at h
    simp only [compareLex, Ordering.then_eq_eq, compareOn, Std.LawfulEqCmp.compare_eq_iff_eq] at h
    cases p
    cases q
    simp_all

/-- The name that a resource type implies: all before its first underscore. -/
def impliedName (resourceType : String) : String :=
  String.ofList (Text.cut '_' resourceType.toList).1

end ProviderRef

/-- A name and the attributes that follow it. -/
structure DottedName where
  root : String
  attrs : List String
  /-- Something other than an attribute comes after those. -/
  more : Bool
deriving DecidableEq, Repr

namespace DottedName

/-- The attributes at the beginning of the steps, and whether anything follows them. -/
def ofSteps (root : String) (steps : List Hcl.Step) : DottedName :=
  match steps with
  | [] => ⟨root, [], false⟩
  | .attr name :: rest =>
    let d := ofSteps root rest
    ⟨root, name :: d.attrs, d.more⟩
  | _ => ⟨root, [], true⟩

/-- An expression as a dotted name, if it starts with a bare name. -/
def ofExpr? : Hcl.Expr → Option DottedName
  | .variable name => some ⟨name, [], false⟩
  | .traversal (.variable name) steps => some (ofSteps name steps)
  | .paren inner => ofExpr? inner
  | _ => none
termination_by structural e => e

/-- Names with points between them. -/
def ofText? (s : String) : Option DottedName :=
  match Text.pieces '.' s with
  | root :: attrs =>
    if (root :: attrs).all Text.isIdentifier then some ⟨root, attrs, false⟩ else none
  | [] => none

def text (d : DottedName) : String :=
  ".".intercalate (d.root :: d.attrs)

end DottedName

namespace ProviderRef

/-- Why an expression is not a reference. -/
inductive Error where
  | argument
  | address
  | operators
  | extraneous
deriving DecidableEq, Repr

def Error.summary : Error → String
  | .argument => "Invalid provider reference"
  | _ => "Invalid provider configuration address"

def Error.detail : Error → String
  | .argument =>
    "Provider argument requires a provider name followed by an optional alias, like \"aws.foo\"."
  | .address =>
    "A provider configuration address must be a provider local name, optionally followed by a " ++
      "dot and an alias name."
  | .operators =>
    "The provider type name must either stand alone or be followed by an alias name separated " ++
      "with a dot."
  | .extraneous => "Extraneous extra operators after provider configuration address."

/-- Reads the argument of a resource: a bare reference, or the same in quotes. What follows the
alias does not count. -/
def ofArgument (e : Hcl.Expr) : Except Error ProviderRef :=
  match (DottedName.ofExpr? e).or (e.literal?.bind Value.text? |>.bind DottedName.ofText?) with
  | some d => .ok ⟨d.root, d.attrs.headD ""⟩
  | none => .error .argument

/-- Reads a bare reference with nothing after the alias. -/
def ofAddress (e : Hcl.Expr) : Except Error ProviderRef :=
  match DottedName.ofExpr? e with
  | none => .error .address
  | some ⟨_, _, true⟩ => .error .operators
  | some ⟨root, [], false⟩ => .ok (ofName root)
  | some ⟨root, [aliasName], false⟩ => .ok ⟨root, aliasName⟩
  | some _ => .error .extraneous

end ProviderRef

end EarlyConfig

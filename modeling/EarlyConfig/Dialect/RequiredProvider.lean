import EarlyConfig.Dialect.Attribute
import EarlyConfig.Provider.Address
import EarlyConfig.Provider.Reference
import EarlyConfig.Version.Constraint

/-! Blocks that say which providers are required: their sources, the versions that will do and the
aliases they are expected under. -/
namespace EarlyConfig

/-- One entry of a block. -/
structure RequiredProvider where
  name : String
  source : String := ""
  versions : List (Placed String) := []
  aliases : List ProviderRef := []
  range : SourceRange

namespace RequiredProvider

open Hcl (Attribute Block Expr Located)

/-! ### Complaints -/

def unexpectedBlock (file : String) (b : Block) : Diagnostic :=
  .error ("Unexpected " ++ Text.quote b.kind ++ " block") "Blocks are not allowed here."
    (.ofSpan file b.header.kind.span)

def invalidSyntax (range : SourceRange) : Diagnostic :=
  .error "Invalid required_providers syntax"
    "required_providers entries must be strings or objects." range

def invalidVersion (range : SourceRange) : Diagnostic :=
  .error "Invalid version constraint" "Version must be specified as a string." range

def invalidSource (range : SourceRange) : Diagnostic :=
  .error "Invalid source" "Source must be specified as a string." range

def invalidKey (range : SourceRange) : Diagnostic :=
  .error "Invalid required_providers object"
    ("required_providers objects can only contain \"version\", \"source\" and " ++
      "\"configuration_aliases\" attributes. To configure a provider, use a \"provider\" block.")
    range

def invalidAliases (range : SourceRange) : Diagnostic :=
  .error "Invalid expression" "A static list expression is required." range

def foreignAlias (expected given : String) (range : SourceRange) : Diagnostic :=
  .error "Invalid configuration_aliases value"
    ("Configuration aliases can only contain references to local provider configuration names. " ++
      "Expected " ++ Text.quote expected ++ ", got " ++ Text.quote given ++ ".")
    range

/-! ### Entries -/

/-- An alias of the provider of a name. -/
def decodeAlias (file name : String) (e : Located Expr) : Diagnosed (Option ProviderRef) :=
  let range := SourceRange.ofSpan file e.span
  match ProviderRef.ofAddress e.value with
  | .error err => .reject (.error err.summary err.detail range)
  | .ok ref =>
    if ref.localName = name then pure (some ref)
    else .reject (foreignAlias name ref.localName range)

def decodeAliases (file name : String) (e : Located Expr) : Diagnosed (List ProviderRef) := do
  match e.value with
  | .list items => return (← items.mapM (decodeAlias file name)).filterMap id
  | _ =>
    .report (invalidAliases (.ofSpan file e.span))
    return []

/-- Takes up one setting of an entry that is written as an object. -/
def addSetting (file : String) (p : RequiredProvider) (key value : Located Expr) :
    Diagnosed RequiredProvider := do
  let range := SourceRange.ofSpan file value.span
  match key.value.keyName? with
  | some "version" =>
    match value.value.literal?.bind Value.text? with
    | some version => return { p with versions := p.versions ++ [⟨version, range⟩] }
    | none =>
      .report (invalidVersion range)
      return p
  | some "source" =>
    match value.value.literal?.bind Value.text? with
    | some source => return { p with source }
    | none =>
      .report (invalidSource range)
      return p
  | some "configuration_aliases" =>
    return { p with aliases := p.aliases ++ (← decodeAliases file p.name value) }
  | _ =>
    .report (invalidKey (.ofSpan file key.span))
    return p

/-- The text of an entry that is only a version, which may be written as a number. -/
def versionText? : Value → Option String
  | .text s => some s
  | .number n => some n.text
  | _ => none

def decodeEntry (file : String) (a : Attribute) : Diagnosed (Option RequiredProvider) := do
  let entry : RequiredProvider := { name := a.name, range := a.range file }
  match a.value.value with
  | .object items =>
    return some (← items.foldlM (fun p (key, value) => p.addSetting file key value) entry)
  | e =>
    match e.literal?.bind versionText? with
    | some version => return some { entry with versions := [⟨version, entry.range⟩] }
    | none => .reject (invalidSyntax entry.range)

/-- The entries of a block in order. -/
def decode (file : String) (b : Block) : Diagnosed (List RequiredProvider) := do
  b.body.blocks.forM fun nested => .report (unexpectedBlock file nested)
  return (← b.body.attributes.mapM (decodeEntry file)).filterMap id

/-! ### Merging -/

def multipleSources (name known given : String) (range : SourceRange) : Diagnostic :=
  .error "Multiple provider source attributes"
    ("Found multiple source attributes for provider " ++ name ++ ": " ++ Text.quote known ++ ", " ++
      Text.quote given)
    range

/-- Of texts the first that is not empty counts; a different one after it is complained about. -/
def keepFirst (known : Option (Placed String)) (given : Placed String)
    (complaint : Placed String → Diagnostic) : Diagnosed (Option (Placed String)) := do
  if given.value.isEmpty then return known
  match known with
  | none => return some given
  | some k =>
    if k.value ≠ given.value then .report (complaint k)
    return known

def mergeSource (known : Option (Placed String)) (p : RequiredProvider) :
    Diagnosed (Option (Placed String)) :=
  keepFirst known ⟨p.source, p.range⟩ fun k =>
    multipleSources p.name k.value p.source p.range

/-! ### Resolution -/

/-- The address of a provider by its source, or else by its name alone. -/
def address (name : String) : Option (Placed String) → Diagnosed (Option Provider)
  | none => pure (if name.isEmpty then none else some (.legacy name))
  | some source =>
    match Provider.ofSource source.value with
    | .ok p => pure (some p)
    | .error e => .reject (.error "Invalid provider source" e.detail source.range)

def invalidConstraint (version : Placed String) (e : VersionError) : Diagnostic :=
  .error "Invalid provider version constraint"
    ("Unable to parse " ++ Text.quote version.value ++ ": " ++ e.message ++ ".") version.range

/-- The constraints that a version string stands for, none if it makes no sense. -/
def constraints (version : Placed String) : Diagnosed Constraints := do
  match Constraints.read version.value with
  | .ok cs => return cs
  | .error e =>
    .report (invalidConstraint version e)
    return []

end RequiredProvider

end EarlyConfig

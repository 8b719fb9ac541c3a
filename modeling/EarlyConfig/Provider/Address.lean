import EarlyConfig.Text.Blank
import EarlyConfig.Text.Quoted
import EarlyConfig.Text.Split

/-! Global addresses of providers and the source strings that stand for them. -/
namespace EarlyConfig

/-- The provider of a type in a namespace of a registry. -/
structure Provider where
  hostname : String
  namespaceName : String
  typeName : String
deriving DecidableEq, Repr

namespace Provider

def registryHost : String := "registry.terraform.io"

def defaultNamespace : String := "hashicorp"

/-- The namespace of providers that are known by name only. -/
def legacyNamespace : String := "-"

def builtinHost : String := "terraform.io"

def builtinNamespace : String := "builtin"

def legacy (typeName : String) : Provider :=
  ⟨registryHost, legacyNamespace, typeName⟩

def ofType (typeName : String) : Provider :=
  ⟨registryHost, defaultNamespace, typeName⟩

def builtin (typeName : String) : Provider :=
  ⟨builtinHost, builtinNamespace, typeName⟩

def isLegacy (p : Provider) : Bool :=
  p.namespaceName = legacyNamespace

def isBuiltin (p : Provider) : Bool :=
  p.hostname = builtinHost && p.namespaceName = builtinNamespace

def text (p : Provider) : String :=
  "/".intercalate [p.hostname, p.namespaceName, p.typeName]

/-- The address without the host if that is the default one. -/
def display (p : Provider) : String :=
  if p.hostname = registryHost then "/".intercalate [p.namespaceName, p.typeName] else p.text

instance : Ord Provider :=
  ⟨compareLex (compareOn hostname) (compareLex (compareOn namespaceName) (compareOn typeName))⟩

instance : Std.TransOrd Provider :=
  inferInstanceAs (Std.TransCmp (compareLex (compareOn hostname) _))

instance : Std.LawfulEqOrd Provider where
  eq_of_compare {p q} h := by
    change compareLex _ _ p q = .eq at h
    simp only [compareLex, Ordering.then_eq_eq, compareOn, Std.LawfulEqCmp.compare_eq_iff_eq] at h
    cases p
    cases q
    simp_all

/-! ### Source strings -/

/-- What is wrong with a part of a source string. -/
inductive PartError where
  | empty
  | long
  | dash
  | character
deriving DecidableEq, Repr

def PartError.message : PartError → String
  | .empty => "must have at least one character"
  | .long => "must have no more than 64 characters"
  | .dash => "must not begin or end with a dash"
  | .character => "must contain only letters, digits, and dashes"

/-- What is wrong with the host of a source string. -/
inductive HostError where
  /-- What follows the last colon is not a number. -/
  | number
  | empty
  | labelLength
  | dash
  | character
deriving DecidableEq, Repr

def HostError.message : HostError → String
  | .number => "invalid port number"
  | .empty => "must not be empty"
  | .labelLength => "each dot-separated part must have between 1 and 63 characters"
  | .dash => "dot-separated parts must not begin or end with a dash"
  | .character => "must contain only letters, digits, dashes, and dots"

inductive SourceError where
  | empty
  | format
  | type (part source : String) (reason : PartError)
  | typeMark (typeName source : String)
  | inNamespace (part source : String) (reason : PartError)
  | host (part source : String) (reason : HostError)
  | legacyHost
deriving DecidableEq, Repr

/-- The word that is put before the names of providers elsewhere but is not part of their types. -/
def typeMark : List Char :=
  "terraform-provider-".toList

/-- The text without all the marks at its beginning. -/
def dropMarks : Nat → List Char → List Char
  | 0, cs => cs
  | fuel + 1, cs =>
    match Text.after? typeMark cs with
    | some rest => dropMarks fuel rest
    | none => cs

def unmarked (typeName : String) : String :=
  String.ofList (dropMarks typeName.length typeName.toList)

namespace SourceError

def summary (_ : SourceError) : String :=
  "Invalid provider source string"

def inSource (what part source : String) : String :=
  "Invalid provider " ++ what ++ " " ++ Text.quote part ++ " in source " ++ Text.quote source ++
    ": "

def detail : SourceError → String
  | .empty => "The provider source string must not be empty."
  | .format => "The \"source\" attribute must be in the format \"[hostname/][namespace/]name\""
  | .type part source reason => inSource "type" part source ++ reason.message
  | .typeMark typeName source =>
    inSource "type" typeName source ++ "must not have the prefix " ++
      Text.quote (String.ofList Provider.typeMark) ++ "; did you mean " ++
      Text.quote (unmarked typeName) ++ "?"
  | .inNamespace part source reason => inSource "namespace" part source ++ reason.message
  | .host part source reason => inSource "registry host" part source ++ reason.message
  | .legacyHost =>
    "The legacy provider namespace \"-\" can be used only with hostname " ++ registryHost ++ "."

def message (e : SourceError) : String :=
  e.summary ++ ": " ++ e.detail

end SourceError

def hasOuterDash (cs : List Char) : Bool :=
  cs.head? = some '-' || cs.getLast? = some '-'

def isPartChar (c : Char) : Bool :=
  c.isAlphanum || c = '-'

/-- Checks a namespace or a type and puts it into lower case. -/
def readPart (s : String) : Except PartError String :=
  let cs := s.toList
  if cs.isEmpty then .error .empty
  else if 64 < s.utf8ByteSize then .error .long
  else if hasOuterDash cs then .error .dash
  else if !cs.all isPartChar then .error .character
  else .ok (Text.lower s)

def checkLabel (label : String) : Except HostError Unit :=
  let cs := label.toList
  if cs.isEmpty || 63 < label.utf8ByteSize then .error .labelLength
  else if hasOuterDash cs then .error .dash
  else if !cs.all isPartChar then .error .character
  else .ok ()

/-- Checks a host, with a number after a colon or without, and puts it into lower case. -/
def readHost (s : String) : Except HostError String := do
  let (host, number) := Text.cutLast ':' s.toList
  if number.any fun digits => digits.isEmpty || !digits.all Char.isDigit then throw .number
  if host.isEmpty then throw .empty
  (Text.pieces '.' (String.ofList host)).forM checkLabel
  return Text.lower s

def readType (part source : String) : Except SourceError String := do
  let typeName ← (readPart part).mapError (.type part source)
  if typeMark.isPrefixOf typeName.toList then throw (.typeMark typeName source)
  return typeName

def readNamespace (part source : String) : Except SourceError String :=
  if part = legacyNamespace then .ok part
  else (readPart part).mapError (.inNamespace part source)

/-- Providers without a name of their own live in the default registry only. -/
def checkLegacy (p : Provider) : Except SourceError Provider :=
  if p.namespaceName = legacyNamespace ∧ p.hostname ≠ registryHost then .error .legacyHost
  else .ok p

/-- Reads `type`, `namespace/type` or `host/namespace/type`. The type is checked first, then the
namespace, then the host. -/
def ofSource (source : String) : Except SourceError Provider := do
  if (Text.trim source).isEmpty then throw .empty
  match Text.pieces '/' source with
  | [t] => return ofType (← readType t source)
  | [n, t] =>
    let typeName ← readType t source
    return ⟨registryHost, ← readNamespace n source, typeName⟩
  | [h, n, t] =>
    let typeName ← readType t source
    let namespaceName ← readNamespace n source
    let hostname ← (readHost h).mapError (.host h source)
    checkLegacy ⟨hostname, namespaceName, typeName⟩
  | _ => throw .format

end Provider

end EarlyConfig

import EarlyConfig.Hcl.Span
import EarlyConfig.Number.Decimal
import EarlyConfig.SortedMap

/-! Diagnostics: what is wrong with a configuration, and where. Decoding never fails as a whole: it
has a value and reports what it could not make sense of (`Diagnosed`). -/
namespace EarlyConfig

inductive Severity where
  | error
  | warning
deriving DecidableEq, Repr

def Severity.text : Severity → String
  | .error => "error"
  | .warning => "warning"

/-- Bytes of a named file. -/
structure SourceRange where
  filename : String
  start : Nat
  stop : Nat
deriving DecidableEq, Repr

namespace SourceRange

def ofSpan (filename : String) (span : Hcl.Span) : SourceRange :=
  ⟨filename, span.start, span.stop⟩

def text (r : SourceRange) : String :=
  r.filename ++ ":" ++ Decimal.natText r.start ++ ".." ++ Decimal.natText r.stop

end SourceRange

/-- Something with its place. -/
structure Placed (α : Type) where
  value : α
  range : SourceRange
deriving DecidableEq, Repr

structure Diagnostic where
  severity : Severity
  summary : String
  detail : String
  /-- What the diagnostic is about. -/
  subject : Option SourceRange := none
  /-- What to show around the subject. -/
  context : Option SourceRange := none
deriving DecidableEq, Repr

namespace Diagnostic

def error (summary detail : String) (subject : SourceRange) : Diagnostic :=
  ⟨.error, summary, detail, some subject, none⟩

/-- The file of the subject, or else of the context. -/
def filename? (d : Diagnostic) : Option String :=
  (d.subject.or d.context).map (·.filename)

def isError (d : Diagnostic) : Bool :=
  d.severity = .error

def text (d : Diagnostic) : String :=
  d.severity.text ++ ": " ++ d.summary ++ ": " ++ d.detail ++
    match d.subject with
    | some range => " (" ++ range.text ++ ")"
    | none => ""

end Diagnostic

/-- Diagnostics in the order in which they were found. -/
abbrev Diagnostics := List Diagnostic

namespace Diagnostics

/-- Nothing but one diagnostic. -/
def ofDiagnostic (d : Diagnostic) : Diagnostics :=
  [d]

def push (ds : Diagnostics) (d : Diagnostic) : Diagnostics :=
  ds ++ [d]

def extend (ds : Diagnostics) (more : List Diagnostic) : Diagnostics :=
  more.foldl push ds

/-- What can be done to a list of diagnostics. -/
inductive Edit where
  | push (d : Diagnostic)
  | extend (more : List Diagnostic)
  /-- Starts again with one diagnostic. -/
  | reset (d : Diagnostic)

def edit (ds : Diagnostics) : Edit → Diagnostics
  | .push d => ds.push d
  | .extend more => ds.extend more
  | .reset d => ofDiagnostic d

/-- What the edits come to, one after another from an empty list. -/
def ofEdits (edits : List Edit) : Diagnostics :=
  edits.foldl edit []

def hasErrors (ds : Diagnostics) : Bool :=
  ds.any Diagnostic.isError

def summaries (ds : Diagnostics) : List String :=
  ds.map (·.summary)

/-- One line for each. -/
def text (ds : Diagnostics) : String :=
  String.join (ds.map fun d => d.text ++ "\n")

def addToFile (groups : SortedMap String Diagnostics) (d : Diagnostic) :
    SortedMap String Diagnostics :=
  let filename := d.filename?.getD ""
  groups.insert filename ((groups.get? filename).getD [] ++ [d])

/-- The diagnostics of each file. Those without a place belong to the file without a name. -/
def byFile (ds : Diagnostics) : SortedMap String Diagnostics :=
  ds.foldl addToFile .empty

end Diagnostics

/-- A value and what was found wrong on the way to it. -/
structure Diagnosed (α : Type) where
  value : α
  diagnostics : Diagnostics

namespace Diagnosed

instance : Monad Diagnosed where
  pure a := ⟨a, []⟩
  bind x f := ⟨(f x.value).value, x.diagnostics ++ (f x.value).diagnostics⟩

def report (d : Diagnostic) : Diagnosed Unit :=
  ⟨(), [d]⟩

/-- Nothing but a diagnostic. -/
def reject (d : Diagnostic) : Diagnosed (Option α) :=
  ⟨none, [d]⟩

@[simp] theorem value_pure (a : α) : (pure a : Diagnosed α).value = a := rfl

@[simp] theorem diagnostics_pure (a : α) : (pure a : Diagnosed α).diagnostics = [] := rfl

@[simp] theorem value_bind (x : Diagnosed α) (f : α → Diagnosed β) :
    (x >>= f).value = (f x.value).value := rfl

@[simp] theorem diagnostics_bind (x : Diagnosed α) (f : α → Diagnosed β) :
    (x >>= f).diagnostics = x.diagnostics ++ (f x.value).diagnostics := rfl

@[ext] theorem ext {x y : Diagnosed α} (hv : x.value = y.value)
    (hd : x.diagnostics = y.diagnostics) : x = y := by
  cases x
  cases y
  simp_all

instance : LawfulMonad Diagnosed := LawfulMonad.mk'
  Diagnosed
  (fun x => by apply ext <;> simp [Functor.map])
  (fun a f => by apply ext <;> simp)
  (fun x f g => by apply ext <;> simp)

end Diagnosed

end EarlyConfig

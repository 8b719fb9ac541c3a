import EarlyConfig.Dialect.Basic
import EarlyConfig.Dialect.ModuleOrigin
import EarlyConfig.Provider.Reference
import EarlyConfig.Schema.Tables

/-! The dialect of tests: runs of a module, the variables they set and the providers they use. -/
namespace EarlyConfig

namespace TestConfig

inductive Command where
  | apply
  | plan
deriving DecidableEq, Repr

def Command.text : Command → String
  | .apply => "apply"
  | .plan => "plan"

structure Run where
  command : Command
  /-- Another module to run instead of the one under test. -/
  module? : Option ModuleOrigin := none
  variableNames : List String := []
  /-- References to what is expected to fail. -/
  expectFailures : List String
  /-- How many assertions there are. -/
  assertions : Nat := 0
  range : SourceRange

structure ProviderSetup where
  mock : Bool
  source : String
  range : SourceRange
deriving DecidableEq, Repr

end TestConfig

/-- What early decoding learns about a test. -/
structure TestConfig where
  path : String
  filenames : List String
  runs : SortedMap String TestConfig.Run
  /-- The variables that are set for all runs of a file. -/
  variableNames : SortedSet String
  providers : SortedMap ProviderRef TestConfig.ProviderSetup

namespace TestConfig

open Hcl (Attribute Block)

/-! ### Runs -/

def invalidCommand (range : SourceRange) : Diagnostic :=
  .error "Invalid \"command\" keyword"
    ("The \"command\" argument requires one of the following keywords without quotes: " ++
      "apply or plan.")
    range

/-- The command is written as a bare word. -/
def Command.ofExpr? (e : Hcl.Expr) : Option Command :=
  match DottedName.ofExpr? e with
  | some ⟨"apply", [], false⟩ => some .apply
  | some ⟨"plan", [], false⟩ => some .plan
  | _ => none

def decodeCommand (file : String) : Option Attribute → Diagnosed Command
  | none => pure .apply
  | some a =>
    match Command.ofExpr? a.value.value with
    | some command => pure command
    | none => do
      .report (invalidCommand (a.range file))
      return .apply

/-- The references of a list. -/
def references (a : Attribute) : List String :=
  match a.value.value with
  | .list items => items.filterMap fun e => (DottedName.ofExpr? e.value).map DottedName.text
  | _ => []

/-- Puts diagnostics without a place at a given one. -/
def placeAt (range : SourceRange) (x : Diagnosed α) : Diagnosed α :=
  ⟨x.value, x.diagnostics.map fun d => { d with subject := d.subject.or (some range) }⟩

/-- Takes up a block of a run. Of modules and of sets of variables the last counts. -/
def Run.add (file : String) (r : Run) (b : Block) : Diagnosed Run := do
  match b.kind with
  | "module" =>
    let content ← placeAt (b.range file) (Schema.runModule.select file b.body)
    return { r with module? := some (← ModuleOrigin.decode file content) }
  | "variables" => return { r with variableNames := b.body.attributeNamesExcept [] }
  | "assert" => return { r with assertions := r.assertions + 1 }
  | _ => return r

def Run.decode (file : String) (b : Block) : Diagnosed Run := do
  let content ← Schema.run.select file b.body
  let command ← decodeCommand file (content.attribute? "command")
  let expectFailures := ((content.attribute? "expect_failures").map references).getD []
  content.blocks.foldlM (Run.add file) { command, expectFailures, range := b.range file }

/-! ### Declarations -/

inductive Declaration where
  | run (name : String) (run : Run)
  | inputs (names : List String)
  | provider (ref : ProviderRef) (setup : ProviderSetup)

namespace Declaration

def ofRun (file : String) (b : Block) : Diagnosed (Option Declaration) := do
  let some name ← b.name? file 0 | return none
  return some (.run name (← Run.decode file b))

def ofProvider (file : String) (mock : Bool) (b : Block) : Diagnosed (Option Declaration) := do
  let content ← Schema.testProvider.select file b.body
  let aliasName ← content.string file "alias"
  let source ← content.string file "source"
  return some (.provider ⟨b.label 0, aliasName⟩ { mock, source, range := b.range file })

/-- What a block of the root declares. -/
def ofBlock (file : String) (b : Block) : Diagnosed (Option Declaration) :=
  match b.kind with
  | "run" => ofRun file b
  | "variables" => pure (some (.inputs b.body.attributeNames))
  | "provider" => ofProvider file false b
  | "mock_provider" => ofProvider file true b
  | _ => pure none

end Declaration

structure Draft where
  runs : SortedMap String Run := .empty
  variableNames : SortedSet String := .empty
  providers : SortedMap ProviderRef ProviderSetup := .empty

/-- Takes up a declaration. Of runs and of providers of one name the last counts. -/
def Draft.absorb (d : Draft) : Declaration → Draft
  | .run name r => { d with runs := d.runs.insert name r }
  | .inputs names => { d with variableNames := d.variableNames.addAll names }
  | .provider ref setup => { d with providers := d.providers.insert ref setup }

def dialect : Dialect Declaration Draft TestConfig where
  root := Schema.testRoot
  declare file b := [Declaration.ofBlock file b]
  start := {}
  absorb d x := pure (d.absorb x)
  resolve path filenames d := pure {
    path
    filenames
    runs := d.runs
    variableNames := d.variableNames
    providers := d.providers }

/-- Decodes the files of a test. -/
def load (path : String) (files : FileSet) : Diagnosed TestConfig :=
  dialect.load path files

end TestConfig

end EarlyConfig

import EarlyConfig.Dialect.Attribute
import EarlyConfig.Dialect.Basic
import EarlyConfig.Schema.Tables

/-! The dialect of policy tests: fixtures that a policy is evaluated against, and whether it is
expected to reject them. -/
namespace EarlyConfig

structure Fixture where
  /-- The names of the attributes it sets, sorted. -/
  attributeNames : List String
  expectFailure : Bool
  range : SourceRange
deriving DecidableEq, Repr

/-- What early decoding learns about a policy test. -/
structure PolicyTestConfig where
  path : String
  filenames : List String
  resources : SortedMap String Fixture
  dataSources : SortedMap String Fixture
  providers : SortedMap String Fixture
  moduleCalls : SortedMap String Fixture

namespace PolicyTestConfig

open Hcl (Block)

inductive Kind where
  | resource
  | dataSource
  | provider
  | moduleCall
deriving DecidableEq, Repr

/-- A fixture of a kind, and the key it goes by. -/
structure Declaration where
  kind : Kind
  key : String
  fixture : Fixture

def decodeFixture (file : String) (b : Block) : Diagnosed Fixture := do
  let content ← Schema.policyTestFixture.select file b.body
  let expectFailure ← content.bool file "expect_failure"
  return ⟨content.objectKeys "attrs", expectFailure, b.range file⟩

namespace Declaration

def keyed (file : String) (kind : Kind) (key : String) (b : Block) :
    Diagnosed (Option Declaration) := do
  return some ⟨kind, key, ← decodeFixture file b⟩

def named (file : String) (kind : Kind) (b : Block) : Diagnosed (Option Declaration) := do
  let some name ← b.name? file 0 | return none
  keyed file kind name b

/-- What a block of the root declares. -/
def ofBlock (file : String) (b : Block) : Diagnosed (Option Declaration) :=
  match b.kind with
  | "resource" => keyed file .resource (".".intercalate [b.label 0, b.label 1]) b
  | "data" => keyed file .dataSource (".".intercalate ["data", b.label 0, b.label 1]) b
  | "provider" => named file .provider b
  | "module" => named file .moduleCall b
  | _ => pure none

end Declaration

structure Draft where
  resources : SortedMap String Fixture := .empty
  dataSources : SortedMap String Fixture := .empty
  providers : SortedMap String Fixture := .empty
  moduleCalls : SortedMap String Fixture := .empty

/-- Takes up a fixture. Of those of one kind and key the last counts. -/
def Draft.absorb (d : Draft) (x : Declaration) : Draft :=
  match x.kind with
  | .resource => { d with resources := d.resources.insert x.key x.fixture }
  | .dataSource => { d with dataSources := d.dataSources.insert x.key x.fixture }
  | .provider => { d with providers := d.providers.insert x.key x.fixture }
  | .moduleCall => { d with moduleCalls := d.moduleCalls.insert x.key x.fixture }

def dialect : Dialect Declaration Draft PolicyTestConfig where
  root := Schema.policyTestRoot
  declare file b := [Declaration.ofBlock file b]
  start := {}
  absorb d x := pure (d.absorb x)
  resolve path filenames d := pure {
    path
    filenames
    resources := d.resources
    dataSources := d.dataSources
    providers := d.providers
    moduleCalls := d.moduleCalls }

/-- Decodes the files of a policy test. -/
def load (path : String) (files : FileSet) : Diagnosed PolicyTestConfig :=
  dialect.load path files

end PolicyTestConfig

end EarlyConfig

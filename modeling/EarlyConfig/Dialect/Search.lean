import EarlyConfig.Dialect.Basic
import EarlyConfig.Dialect.Variable
import EarlyConfig.Provider.Address
import EarlyConfig.Provider.Argument
import EarlyConfig.Schema.Tables

/-! The dialect of searches. -/
namespace EarlyConfig

namespace SearchConfig

structure Query where
  type : String
  name : String
  /-- The provider that is named for it, or else the one its type implies. -/
  provider : ProviderRef
  range : SourceRange
deriving DecidableEq, Repr

end SearchConfig

/-- What early decoding learns about a search. -/
structure SearchConfig where
  path : String
  filenames : List String
  inputs : SortedMap String Variable
  /-- By `list`, type and name. -/
  lists : SortedMap String SearchConfig.Query
  providerReferences : SortedMap ProviderRef Provider

namespace SearchConfig

open Hcl (Block)

inductive Declaration where
  | list (query : Query)
  | providerConfig (ref : ProviderRef)
  | input (name : String) (v : Variable)

namespace Declaration

def ofList (file : String) (b : Block) : Diagnosed (Option Declaration) := do
  let content ← Schema.list.select file b.body
  let provider ← ProviderRef.argument file content
  let type := b.label 0
  return some (.list {
    type
    name := b.label 1
    provider := provider.getD (.ofName (ProviderRef.impliedName type))
    range := b.range file })

def ofProvider (file : String) (b : Block) : Diagnosed (Option Declaration) := do
  let content ← Schema.providerConfig.select file b.body
  return some (.providerConfig ⟨b.label 0, ← content.string file "alias"⟩)

def ofVariable (file : String) (b : Block) : Diagnosed (Option Declaration) := do
  let some name ← b.name? file 0 | return none
  let content ← Schema.inputVariable.select file b.body
  return some (.input name (← Variable.decode file content))

/-- What a block of the root declares. -/
def ofBlock (file : String) (b : Block) : Diagnosed (Option Declaration) :=
  match b.kind with
  | "list" => ofList file b
  | "provider" => ofProvider file b
  | "variable" => ofVariable file b
  | _ => pure none

end Declaration

structure Draft where
  inputs : SortedMap String Variable := .empty
  lists : SortedMap String Query := .empty
  providerConfigs : List ProviderRef := []

def Query.key (q : Query) : String :=
  ".".intercalate ["list", q.type, q.name]

/-- Takes up a declaration. Of variables and of lists of one name the last counts. -/
def Draft.absorb (d : Draft) : Declaration → Diagnosed Draft
  | .list q => pure { d with lists := d.lists.insert q.key q }
  | .providerConfig ref => pure { d with providerConfigs := d.providerConfigs ++ [ref] }
  | .input name v => pure { d with inputs := d.inputs.insert name v }

/-! ### Providers -/

/-- A configuration and the default one of its local name stand for the provider of that name. -/
def addConfig (m : SortedMap ProviderRef Provider) (ref : ProviderRef) :
    SortedMap ProviderRef Provider :=
  let p := Provider.legacy ref.localName
  let m := m.insert (.ofName ref.localName) p
  if ref.aliasName.isEmpty then m else m.insert ref p

def addImplied (m : SortedMap ProviderRef Provider) (name : String) :
    SortedMap ProviderRef Provider :=
  if name.isEmpty then m else m.insertNew (.ofName name) (.legacy name)

def references (d : Draft) : SortedMap ProviderRef Provider :=
  (d.lists.values.map (·.provider.localName)).foldl addImplied
    (d.providerConfigs.foldl addConfig .empty)

def dialect : Dialect Declaration Draft SearchConfig where
  root := Schema.searchRoot
  declare file b := [Declaration.ofBlock file b]
  start := {}
  absorb := Draft.absorb
  resolve path filenames d := pure {
    path
    filenames
    inputs := d.inputs
    lists := d.lists
    providerReferences := references d }

/-- Decodes the files of a search. -/
def load (path : String) (files : FileSet) : Diagnosed SearchConfig :=
  dialect.load path files

end SearchConfig

end EarlyConfig

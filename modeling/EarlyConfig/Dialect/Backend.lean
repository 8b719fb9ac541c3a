import EarlyConfig.Dialect.Attribute
import EarlyConfig.Schema.Tables

/-! Where a module keeps its state. -/
namespace EarlyConfig

inductive BackendData where
  | remote (hostname : String)
  /-- Settings of other backends are not looked at. -/
  | unknown
deriving DecidableEq, Repr

structure Backend where
  type : String
  data : BackendData
deriving DecidableEq, Repr

structure Cloud where
  hostname : String
  organization : String
deriving DecidableEq, Repr

def Backend.decode (file : String) (b : Hcl.Block) : Diagnosed Backend := do
  match b.label 0 with
  | "remote" =>
    let content ← Schema.backendRemote.select file b.body
    return ⟨"remote", .remote (content.literalString "hostname")⟩
  | type => return ⟨type, .unknown⟩

def Cloud.decode (file : String) (b : Hcl.Block) : Diagnosed Cloud := do
  let content ← Schema.cloud.select file b.body
  return ⟨content.literalString "hostname", content.literalString "organization"⟩

end EarlyConfig

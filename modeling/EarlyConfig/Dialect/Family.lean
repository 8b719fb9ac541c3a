/-! The dialects by name, and the files that belong to each. -/
namespace EarlyConfig

inductive Family where
  | module
  | stack
  | search
  | policyTest
  | test
deriving DecidableEq, Repr

/-- The endings of the names of the files of a dialect. -/
def Family.suffixes : Family → List String
  | .module => [".tf"]
  | .stack => [".tfcomponent.hcl", ".tfstack.hcl", ".tfdeploy.hcl"]
  | .search => [".tfquery.hcl"]
  | .policyTest => [".policytest.hcl"]
  | .test => [".tftest.hcl"]

end EarlyConfig

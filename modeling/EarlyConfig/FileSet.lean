import EarlyConfig.Entries
import EarlyConfig.Hcl.Body

/-! The files of a configuration by name. They keep the order in which they came, which is also the
order in which they are decoded. -/
namespace EarlyConfig

abbrev FileSet := List (String × Hcl.Body)

namespace FileSet

def names (files : FileSet) : List String :=
  Entries.keys files

def sortedNames (files : FileSet) : List String :=
  files.names.mergeSort (· ≤ ·)

def body? (files : FileSet) (name : String) : Option Hcl.Body :=
  Entries.get? name files

/-- A file of the same name keeps its place and gets the new body. -/
def insert (files : FileSet) (name : String) (body : Hcl.Body) : FileSet :=
  Entries.put name body files

end FileSet

end EarlyConfig

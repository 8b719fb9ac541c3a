import EarlyConfig.Defaults
import EarlyConfig.Report.Document

/-! Defaults as data. -/
namespace EarlyConfig.Defaults

mutual

def document : Defaults → Document
  | ⟨type, values, children⟩ => .record [
      ("type", .text type.text),
      ("default_values", .record (entryDocuments values)),
      ("children", .record (childDocuments children))]
termination_by structural d => d

def childDocuments : List (String × Defaults) → List (String × Document)
  | [] => []
  | (k, d) :: rest => (k, d.document) :: childDocuments rest
termination_by structural ds => ds

end

end EarlyConfig.Defaults

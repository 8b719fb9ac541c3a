import EarlyConfig.Diagnostic
import EarlyConfig.Report.Document

/-! Diagnostics as data. -/
namespace EarlyConfig

def SourceRange.document (r : SourceRange) : Document :=
  .record [("filename", .text r.filename), ("start", .ofNat r.start), ("end", .ofNat r.stop)]

def Diagnostic.document (d : Diagnostic) : Document :=
  .record [
    ("severity", .text d.severity.text),
    ("summary", .text d.summary),
    ("detail", .text d.detail),
    ("subject", .ofOption SourceRange.document d.subject),
    ("context", .ofOption SourceRange.document d.context)]

end EarlyConfig

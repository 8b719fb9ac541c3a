import EarlyConfig.Proofs.Places.Dialects

/-! Where one file ends and the next begins. In every dialect the declarations of all files are
taken up in one row, so a body may be cut in two and its second part put into a file of its own:
what comes of the files is the same but for places and the names of the files, and so are the
complaints (`load_split_alike`). -/
namespace EarlyConfig.FileSet

theorem merged_split (before after : FileSet) (file fresh : String) {body first second : Hcl.Body}
    (h : body.unplaced = first.unplaced ++ second.unplaced) :
    merged (before ++ (file, body) :: after) =
      merged (before ++ (file, first) :: (fresh, second) :: after) := by
  simp only [merged, List.flatMap_append, List.flatMap_cons, Hcl.Body.unplaced_append, h,
    List.append_assoc]

/-- **File boundaries do not matter.** If a body is two parts in a row, but for the places in them,
then the second part can be in a file of its own right after the first, whatever the name of that
file. In each dialect this gives the same result, but for places and the names of the files, and the
same complaints in some order. -/
theorem load_split_alike (path : String) (before after : FileSet) (file fresh : String)
    {body first second : Hcl.Body} (h : body.unplaced = first.unplaced ++ second.unplaced) :
    let whole := before ++ (file, body) :: after
    let split := before ++ (file, first) :: (fresh, second) :: after
    (ModuleConfig.load path whole).Alike ModuleConfig.unplaced (ModuleConfig.load path split) ∧
      (StackConfig.load path whole).Alike StackConfig.unplaced (StackConfig.load path split) ∧
      (SearchConfig.load path whole).Alike SearchConfig.unplaced (SearchConfig.load path split) ∧
      (PolicyTestConfig.load path whole).Alike PolicyTestConfig.unplaced
        (PolicyTestConfig.load path split) ∧
      (TestConfig.load path whole).Alike TestConfig.unplaced (TestConfig.load path split) := by
  intro whole split
  have hmerged : whole.merged = split.merged := merged_split before after file fresh h
  exact ⟨ModuleConfig.placeless.load_alike path hmerged,
    StackConfig.placeless.load_alike path hmerged,
    SearchConfig.placeless.load_alike path hmerged,
    PolicyTestConfig.placeless.load_alike path hmerged,
    TestConfig.placeless.load_alike path hmerged⟩

/-- A block of settings with a backend, at a place. -/
def backendAt (start : Nat) : Hcl.Item :=
  .block ⟨⟨"terraform", ⟨start, start + 9⟩⟩, []⟩
    [.block ⟨⟨"backend", ⟨start + 12, start + 19⟩⟩, [⟨"s3", ⟨start + 20, start + 24⟩⟩]⟩ []]

/-- The second of two backends is complained about in its own file as well, though at another place.
-/
theorem load_split_alike_backends :
    let whole : FileSet := [("main.tf", [backendAt 0, backendAt 30])]
    let split : FileSet := [("main.tf", [backendAt 0]), ("backend.tf", [backendAt 0])]
    Hcl.Body.unplaced [backendAt 0, backendAt 30] =
        Hcl.Body.unplaced [backendAt 0] ++ Hcl.Body.unplaced [backendAt 0] ∧
      (ModuleConfig.load "" whole).diagnostics ≠ (ModuleConfig.load "" split).diagnostics ∧
      (ModuleConfig.load "" whole).diagnostics.messages.length = 1 ∧
      (ModuleConfig.load "" whole).Alike ModuleConfig.unplaced (ModuleConfig.load "" split) := by
  intro whole split
  have h : Hcl.Body.unplaced [backendAt 0, backendAt 30] =
      Hcl.Body.unplaced [backendAt 0] ++ Hcl.Body.unplaced [backendAt 0] := rfl
  exact ⟨h, by decide +kernel, by decide +kernel,
    (load_split_alike "" [] [] "main.tf" "backend.tf" h).1⟩

end EarlyConfig.FileSet

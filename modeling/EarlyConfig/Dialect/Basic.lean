import EarlyConfig.FileSet
import EarlyConfig.Schema.Basic

/-! Dialects: families of files that share the syntax but have blocks of their own. Files are
decoded in three steps. Each block of the root declares something, or several things, on its own
(`declare`). The declarations of all files are collected one after another (`absorb`). What was
collected is resolved into what the configuration as a whole says (`resolve`). -/
namespace EarlyConfig

/-- A dialect with declarations `δ`, which are collected in `σ` and resolved to `μ`. -/
structure Dialect (δ σ μ : Type) where
  root : Schema
  /-- What a block of the root of a file declares. -/
  declare : String → Hcl.Block → List (Diagnosed (Option δ))
  start : σ
  absorb : σ → δ → Diagnosed σ
  /-- The result, from the path of the configuration and the sorted names of its files. -/
  resolve : String → List String → σ → Diagnosed μ

namespace Dialect

variable {δ σ μ : Type}

/-- What a file declares. Complaints about its root come before all else. -/
def declarations (d : Dialect δ σ μ) (file : String) (body : Hcl.Body) :
    List (Diagnosed (Option δ)) :=
  let content := d.root.select file body
  ⟨none, content.diagnostics⟩ :: content.value.blocks.flatMap (d.declare file)

/-- Takes up a declaration and the complaints about it. -/
def take (d : Dialect δ σ μ) (s : σ) (declaration : Diagnosed (Option δ)) : Diagnosed σ := do
  match ← declaration with
  | none => return s
  | some a => d.absorb s a

def collect (d : Dialect δ σ μ) (s : σ) (declarations : List (Diagnosed (Option δ))) :
    Diagnosed σ :=
  declarations.foldlM d.take s

def load (d : Dialect δ σ μ) (path : String) (files : FileSet) : Diagnosed μ := do
  let s ← d.collect d.start (files.flatMap fun (file, body) => d.declarations file body)
  d.resolve path files.sortedNames s

end Dialect

end EarlyConfig

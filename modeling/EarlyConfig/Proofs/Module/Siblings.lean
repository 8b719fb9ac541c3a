import EarlyConfig.Proofs.Module.Complaints
import EarlyConfig.Proofs.SharedVariables

/-! Blocks that leave their siblings alone. The block of a variable, an output or a call declares
one thing and reads nothing that other blocks declare. So two runs that differ in one such block go
on side by side, from drafts that agree in all but one entry (`Draft.SameBut`), with the same
complaints at every step but one. The main statement (`siblings_undisturbed`) says what comes of the
files when such a block is put in anywhere. -/
namespace EarlyConfig

open Hcl (Block Body Item)

/-! ### Runs side by side -/

namespace Diagnosed

variable {α β γ ε : Type} {R : α → β → Prop} {S : γ → ε → Prop}

/-- Related values and the same complaints. -/
structure Related (R : α → β → Prop) (x : Diagnosed α) (y : Diagnosed β) : Prop where
  value : R x.value y.value
  diagnostics : x.diagnostics = y.diagnostics

/-- Related values and the same complaints, but for some more at one place of the second run. -/
structure Widened (R : α → β → Prop) (more : Diagnostics) (x : Diagnosed α) (y : Diagnosed β) :
    Prop where
  value : R x.value y.value
  diagnostics : ∃ before after,
    x.diagnostics = before ++ after ∧ y.diagnostics = before ++ more ++ after

theorem Related.refl (x : Diagnosed α) : Related Eq x x :=
  ⟨rfl, rfl⟩

theorem Related.bind {x : Diagnosed α} {y : Diagnosed β} (h : Related R x y)
    {f : α → Diagnosed γ} {g : β → Diagnosed ε} (hfg : ∀ a b, R a b → Related S (f a) (g b)) :
    Related S (x >>= f) (y >>= g) := by
  obtain ⟨hvalue, hdiagnostics⟩ := hfg _ _ h.value
  refine ⟨hvalue, ?_⟩
  rw [diagnostics_bind, diagnostics_bind, h.diagnostics, hdiagnostics]

theorem Related.foldlM {f : α → γ → Diagnosed α} {g : β → γ → Diagnosed β}
    (hfg : ∀ s t c, R s t → Related R (f s c) (g t c)) {s : α} {t : β} (h : R s t)
    (cs : List γ) : Related R (cs.foldlM f s) (cs.foldlM g t) := by
  induction cs generalizing s t with
  | nil => exact ⟨h, rfl⟩
  | cons c rest ih =>
    rw [List.foldlM_cons, List.foldlM_cons]
    exact (hfg s t c h).bind fun s t h => ih h

theorem Related.widen {x : Diagnosed α} {y : Diagnosed β} (h : Related R x y)
    {f : α → Diagnosed γ} {g : β → Diagnosed ε} {more : Diagnostics}
    (hfg : ∀ a b, R a b → Widened S more (f a) (g b)) : Widened S more (x >>= f) (y >>= g) := by
  obtain ⟨hvalue, before, after, hold, hnew⟩ := hfg _ _ h.value
  refine ⟨hvalue, x.diagnostics ++ before, after, ?_, ?_⟩
  · rw [diagnostics_bind, hold, List.append_assoc]
  · rw [diagnostics_bind, hnew, ← h.diagnostics]
    simp only [List.append_assoc]

theorem Widened.bind {x : Diagnosed α} {y : Diagnosed β} {more : Diagnostics}
    (h : Widened R more x y) {f : α → Diagnosed γ} {g : β → Diagnosed ε}
    (hfg : ∀ a b, R a b → Related S (f a) (g b)) : Widened S more (x >>= f) (y >>= g) := by
  obtain ⟨hvalue, before, after, hold, hnew⟩ := h
  have hrest := hfg _ _ hvalue
  refine ⟨hrest.value, before, after ++ (f x.value).diagnostics, ?_, ?_⟩
  · rw [diagnostics_bind, hold, List.append_assoc]
  · rw [diagnostics_bind, hnew, ← hrest.diagnostics, List.append_assoc]

end Diagnosed

open Diagnosed (Related Widened)

/-! ### A block among others -/

def Hcl.Block.toItem (b : Block) : Item :=
  .block b.header b.body

namespace Schema

/-- There is nothing wrong with the form of a block that is admitted. -/
theorem problem_of_admits {s : Schema} {b : Block} (h : s.admitsBlock b) (file : String) :
    s.problem file b.toItem = none := by
  obtain ⟨expected, hexpected, hlabels⟩ := (Option.any_eq_true _ _).1 h
  have hlength : expected.labels.length = b.header.labels.length := of_decide_eq_true hlabels
  have hkind : s.block? b.header.kind.value = some expected := hexpected
  simp only [problem, Block.toItem, Block.kind, hkind, labelProblem]
  rw [← hlength, List.drop_length, hlength, List.drop_length]

end Schema

namespace Dialect

variable {δ σ μ : Type} (d : Dialect δ σ μ)

/-- What is complained about a block of the root by itself. -/
def about (file : String) (b : Block) : Diagnostics :=
  if d.root.admitsBlock b then (d.declare file b).flatMap (·.diagnostics)
  else (d.root.problem file b.toItem).toList

theorem collect_append (s : σ) (xs ys : List (Diagnosed (Option δ))) :
    d.collect s (xs ++ ys) = d.collect s xs >>= fun s => d.collect s ys :=
  List.foldlM_append

variable {R : σ → σ → Prop} {S : μ → μ → Prop}

theorem collect_related (habsorb : ∀ s t a, R s t → Related R (d.absorb s a) (d.absorb t a))
    {s t : σ} (h : R s t) (xs : List (Diagnosed (Option δ))) :
    Related R (d.collect s xs) (d.collect t xs) := by
  refine Related.foldlM (fun s t x hst => ?_) h xs
  refine (Related.refl x).bind ?_
  rintro declaration _ rfl
  cases declaration with
  | none => exact ⟨hst, rfl⟩
  | some a => exact habsorb s t a hst

/-- Files whose declarations differ in one part go on side by side after that part. -/
theorem load_widened (habsorb : ∀ s t a, R s t → Related R (d.absorb s a) (d.absorb t a))
    (hresolve : ∀ path names s t, R s t →
      Related S (d.resolve path names s) (d.resolve path names t))
    {more : Diagnostics} {before xs ys after : List (Diagnosed (Option δ))}
    (hmore : ∀ s, Widened R more (d.collect s xs) (d.collect s ys)) {files files' : FileSet}
    (hfiles : (files.flatMap fun f => d.declarations f.1 f.2) = before ++ (xs ++ after))
    (hfiles' : (files'.flatMap fun f => d.declarations f.1 f.2) = before ++ (ys ++ after))
    (hnames : files.sortedNames = files'.sortedNames) (path : String) :
    Widened S more (d.load path files) (d.load path files') := by
  have hcollect : Widened R more (d.collect d.start (before ++ (xs ++ after)))
      (d.collect d.start (before ++ (ys ++ after))) := by
    simp only [collect_append]
    refine (Related.refl (d.collect d.start before)).widen ?_
    rintro s _ rfl
    exact (hmore s).bind fun s t h => d.collect_related habsorb h after
  rw [← hfiles, ← hfiles'] at hcollect
  rw [load, load, ← hnames]
  exact hcollect.bind fun s t h => hresolve path files.sortedNames s t h

/-! ### Where the declarations of a block stand -/

theorem declarations_eq (hroot : d.root.attributes = []) (file : String) (body : Body) :
    d.declarations file body =
      ⟨none, body.filterMap (d.root.problem file)⟩ ::
        (body.blocks.filter d.root.admitsBlock).flatMap (d.declare file) := by
  have hmissing : d.root.missing body = [] := by
    rw [Schema.missing, hroot]
    rfl
  rw [declarations, Schema.blocks_select]
  simp only [Schema.select, hmissing, List.map_nil, List.append_nil]

theorem collect_complaints (s : σ) (ds : Diagnostics) : d.collect s [⟨none, ds⟩] = ⟨s, ds⟩ := by
  refine Diagnosed.ext rfl ?_
  show (ds ++ []) ++ [] = ds
  rw [List.append_nil, List.append_nil]

theorem blocks_append (first second : Body) :
    Body.blocks (first ++ second) = first.blocks ++ second.blocks :=
  List.filterMap_append

theorem blocks_cons (b : Block) (rest : Body) : Body.blocks (b.toItem :: rest) = b :: rest.blocks :=
  rfl

/-- A block that is put in declares what it declares at its place, or it adds to what is wrong with
the root at its place. -/
theorem load_insert (hroot : d.root.attributes = [])
    (habsorb : ∀ s t a, R s t → Related R (d.absorb s a) (d.absorb t a))
    (hresolve : ∀ path names s t, R s t →
      Related S (d.resolve path names s) (d.resolve path names t))
    (hrefl : ∀ s, R s s) {file : String} {b : Block}
    (hdeclare : d.root.admitsBlock b →
      ∀ s, Widened R (d.about file b) (pure s) (d.collect s (d.declare file b)))
    (path : String) (before after : FileSet) (first second : Body) :
    Widened S (d.about file b) (d.load path (before ++ (file, first ++ second) :: after))
      (d.load path (before ++ (file, first ++ b.toItem :: second) :: after)) := by
  have hnames : FileSet.sortedNames (before ++ (file, first ++ second) :: after) =
      FileSet.sortedNames (before ++ (file, first ++ b.toItem :: second) :: after) := by
    simp [FileSet.sortedNames, FileSet.names, Entries.keys]
  let all (files : FileSet) := files.flatMap fun f => d.declarations f.1 f.2
  let declared (body : Body) := (body.blocks.filter d.root.admitsBlock).flatMap (d.declare file)
  let problems (body : Body) : Diagnosed (Option δ) := ⟨none, body.filterMap (d.root.problem file)⟩
  by_cases hadmits : d.root.admitsBlock b
  · have hproblem := Schema.problem_of_admits hadmits file
    have hold : all (before ++ (file, first ++ second) :: after) =
        (all before ++ problems (first ++ second) :: declared first) ++
          ([] ++ (declared second ++ all after)) := by
      simp [all, declared, problems, d.declarations_eq hroot, blocks_append]
    have hnew : all (before ++ (file, first ++ b.toItem :: second) :: after) =
        (all before ++ problems (first ++ second) :: declared first) ++
          (d.declare file b ++ (declared second ++ all after)) := by
      simp [all, declared, problems, d.declarations_eq hroot, blocks_append, blocks_cons, hproblem,
        hadmits]
    exact d.load_widened habsorb hresolve (hdeclare hadmits) hold hnew hnames path
  · have habout : d.about file b = (d.root.problem file b.toItem).toList := if_neg hadmits
    have hold : all (before ++ (file, first ++ second) :: after) =
        all before ++ ([problems (first ++ second)] ++
          (declared (first ++ second) ++ all after)) := by
      simp [all, declared, problems, d.declarations_eq hroot]
    have hnew : all (before ++ (file, first ++ b.toItem :: second) :: after) =
        all before ++ ([problems (first ++ b.toItem :: second)] ++
          (declared (first ++ second) ++ all after)) := by
      simp [all, declared, problems, d.declarations_eq hroot, blocks_append, blocks_cons, hadmits]
    refine d.load_widened habsorb hresolve (fun s => ?_) hold hnew hnames path
    rw [collect_complaints, collect_complaints, habout]
    refine ⟨hrefl s, first.filterMap (d.root.problem file),
      second.filterMap (d.root.problem file), List.filterMap_append, ?_⟩
    rw [List.filterMap_append, List.filterMap_cons]
    cases d.root.problem file b.toItem <;> simp

end Dialect

/-! ### Modules -/

/-- The same entries, but for some keys. -/
def SortedMap.SameBut {κ α : Type} [Ord κ] (but : κ → Prop) (m n : SortedMap κ α) : Prop :=
  ∀ k, ¬ but k → m.get? k = n.get? k

namespace SortedMap.SameBut

variable {κ α : Type} [Ord κ] {but : κ → Prop} {m n : SortedMap κ α}

theorem refl (m : SortedMap κ α) : m.SameBut but m :=
  fun _ _ => rfl

variable [Std.TransOrd κ] [Std.LawfulEqOrd κ]

theorem insert (h : m.SameBut but n) (k : κ) (a : α) :
    (m.insert k a).SameBut but (n.insert k a) := by
  intro k' hk'
  rw [get?_insert, get?_insert, h k' hk']

/-- Putting something under a key that is left out of account. -/
theorem insert_own {k : κ} (hk : but k) (a : α) : m.SameBut but (m.insert k a) := by
  intro k' hk'
  have hne : compare k k' ≠ .eq := fun heq => hk' (Std.LawfulEqCmp.eq_of_compare heq ▸ hk)
  rw [get?_insert, if_neg hne]

end SortedMap.SameBut

namespace ModuleConfig

/-- The block is of that kind and has that name and no other label. -/
def Owns (b : Block) (kind name : String) : Prop :=
  b.kind = kind ∧ b.labels = [name]

namespace Draft

/-- The same drafts, but for the entry of a block. -/
structure SameBut (b : Block) (d e : Draft) : Prop where
  core : d.core = e.core
  backends : d.backends = e.backends
  cloud : d.cloud = e.cloud
  requirements : d.requirements = e.requirements
  providerConfigs : d.providerConfigs = e.providerConfigs
  resources : d.resources = e.resources
  inputs : d.inputs.SameBut (Owns b "variable") e.inputs
  outputs : d.outputs.SameBut (Owns b "output") e.outputs
  calls : d.calls.SameBut (Owns b "module") e.calls

variable {b : Block} {d e : Draft}

theorem SameBut.refl (b : Block) (d : Draft) : d.SameBut b d :=
  ⟨rfl, rfl, rfl, rfl, rfl, rfl, .refl _, .refl _, .refl _⟩

theorem SameBut.addBackend (h : d.SameBut b e) (backend : Placed Backend) :
    Related (SameBut b) (d.addBackend backend) (e.addBackend backend) where
  value := by
    rw [value_addBackend, value_addBackend, h.backends]
    exact { h with backends := rfl }
  diagnostics := by
    rw [diagnostics_addBackend, diagnostics_addBackend, h.backends]

theorem SameBut.addRequired (h : d.SameBut b e) (p : RequiredProvider) :
    Related (SameBut b) (d.addRequired p) (e.addRequired p) where
  value := by
    rw [value_addRequired, value_addRequired, h.requirements]
    exact { h with requirements := rfl }
  diagnostics := by
    rw [Draft.addRequired, Draft.addRequired, requirement, requirement, h.requirements]
    rfl

theorem SameBut.addProviderConfig (h : d.SameBut b e) (c : ProviderConfig) :
    (d.addProviderConfig c).SameBut b (e.addProviderConfig c) := by
  rw [addProviderConfig_eq, addProviderConfig_eq, h.requirements, h.providerConfigs]
  exact { h with requirements := rfl, providerConfigs := rfl }

/-- Taking up a declaration looks at nothing that may differ. -/
theorem SameBut.absorb (h : d.SameBut b e) (a : Declaration) :
    Related (SameBut b) (d.absorb a) (e.absorb a) := by
  cases a with
  | core version => exact ⟨{ h with core := congrArg (· ++ [version]) h.core }, rfl⟩
  | backend backend => exact h.addBackend backend
  | cloud cloud => exact ⟨{ h with cloud := rfl }, rfl⟩
  | required entries => exact .foldlM (fun _ _ p h => h.addRequired p) h entries
  | providerConfig config => exact ⟨h.addProviderConfig config, rfl⟩
  | resource key r =>
    exact ⟨{ h with resources := congrArg (SortedMap.insert · key r) h.resources }, rfl⟩
  | input name v => exact ⟨{ h with inputs := h.inputs.insert name v }, rfl⟩
  | output name o => exact ⟨{ h with outputs := h.outputs.insert name o }, rfl⟩
  | call name c => exact ⟨{ h with calls := h.calls.insert name c }, rfl⟩

end Draft

/-- The same configurations, but for the entry of a block. -/
structure SameBut (b : Block) (c e : ModuleConfig) : Prop where
  path : c.path = e.path
  filenames : c.filenames = e.filenames
  backend : c.backend = e.backend
  cloud : c.cloud = e.cloud
  providers : c.providers = e.providers
  coreRequirements : c.coreRequirements = e.coreRequirements
  inputs : c.inputs.SameBut (Owns b "variable") e.inputs
  outputs : c.outputs.SameBut (Owns b "output") e.outputs
  calls : c.calls.SameBut (Owns b "module") e.calls

theorem Draft.SameBut.resolve {b : Block} {d e : Draft} (h : d.SameBut b e) (path : String)
    (names : List String) :
    Related (ModuleConfig.SameBut b) (ModuleConfig.resolve path names d)
      (ModuleConfig.resolve path names e) := by
  have hproviders : Providers.resolve d = Providers.resolve e := by
    rw [Providers.resolve, Providers.resolve, h.requirements, h.providerConfigs, h.resources]
  rw [ModuleConfig.resolve, ModuleConfig.resolve, h.core, h.backends, hproviders, h.cloud]
  exact ⟨⟨rfl, rfl, rfl, rfl, rfl, rfl, h.inputs, h.outputs, h.calls⟩, rfl⟩

/-! ### The declaration of a block -/

namespace Declaration

/-- The declaration makes the entry of a block and no other. -/
def OwnedBy (b : Block) : Declaration → Prop
  | .input name _ => Owns b "variable" name
  | .output name _ => Owns b "output" name
  | .call name _ => Owns b "module" name
  | _ => False

theorem absorb_owned {b : Block} {a : Declaration} (ha : a.OwnedBy b) (d : Draft) :
    Related (Draft.SameBut b) (pure d) (d.absorb a) := by
  have hd := Draft.SameBut.refl b d
  cases a with
  | input name v => exact ⟨{ hd with inputs := .insert_own (k := name) ha v }, rfl⟩
  | output name o => exact ⟨{ hd with outputs := .insert_own (k := name) ha o }, rfl⟩
  | call name c => exact ⟨{ hd with calls := .insert_own (k := name) ha c }, rfl⟩
  | _ => exact ha.elim

/-- The types of blocks whose names are the keys of their own entries. -/
def entryKinds : List String :=
  ["variable", "output", "module"]

theorem labels_of_admits {b : Block} (hb : b.kind ∈ entryKinds)
    (hadmits : Schema.moduleRoot.admitsBlock b) : b.labels = [b.label 0] := by
  have hlength : b.labels.length = 1 := by
    rw [Schema.admitsBlock] at hadmits
    simp only [entryKinds, List.mem_cons, List.not_mem_nil, or_false] at hb
    rw [Block.labels, List.length_map]
    rcases hb with hkind | hkind | hkind <;> rw [hkind] at hadmits <;>
      exact (of_decide_eq_true hadmits).symm
  obtain ⟨name, hname⟩ := List.length_eq_one_iff.1 hlength
  rw [Block.label, hname]
  rfl

theorem labels_of_name? {b : Block} {file name : String} (hlabels : b.labels = [b.label 0])
    (h : (b.name? file 0).value = some name) : b.labels = [name] := by
  rw [Block.value_name?] at h
  split at h <;> cases h
  exact hlabels

/-- Such a block makes one declaration, and that one only about its own entry. -/
theorem ofBlock_owned {b : Block} (hb : b.kind ∈ entryKinds)
    (hadmits : Schema.moduleRoot.admitsBlock b) (file : String) :
    ∃ x, ofBlock file b = [x] ∧ ∀ a, x.value = some a → a.OwnedBy b := by
  have hlabels := labels_of_admits hb hadmits
  simp only [entryKinds, List.mem_cons, List.not_mem_nil, or_false] at hb
  rcases hb with hkind | hkind | hkind
  · refine ⟨ofVariable file b, by simp only [ofBlock, hkind], fun a ha => ?_⟩
    rw [ofVariable, Diagnosed.value_bind] at ha
    split at ha <;> cases ha
    exact ⟨hkind, labels_of_name? hlabels ‹_›⟩
  · refine ⟨ofOutput file b, by simp only [ofBlock, hkind], fun a ha => ?_⟩
    rw [ofOutput, Diagnosed.value_bind] at ha
    split at ha <;> cases ha
    exact ⟨hkind, labels_of_name? hlabels ‹_›⟩
  · refine ⟨ofCall file b, by simp only [ofBlock, hkind], fun a ha => ?_⟩
    rw [ofCall, Diagnosed.value_bind] at ha
    split at ha <;> cases ha
    exact ⟨hkind, labels_of_name? hlabels ‹_›⟩

end Declaration

theorem collect_owned {b : Block} {x : Diagnosed (Option Declaration)}
    (hx : ∀ a, x.value = some a → a.OwnedBy b) (d : Draft) :
    Widened (Draft.SameBut b) x.diagnostics (pure d) (dialect.collect d [x]) := by
  have htake : Draft.SameBut b d (dialect.take d x).value ∧
      (dialect.take d x).diagnostics = x.diagnostics := by
    rw [Dialect.take, Diagnosed.value_bind, Diagnosed.diagnostics_bind]
    cases ha : x.value with
    | none => exact ⟨.refl b d, List.append_nil _⟩
    | some a =>
      have habsorb := Declaration.absorb_owned (hx a ha) d
      refine ⟨habsorb.value, ?_⟩
      show x.diagnostics ++ (d.absorb a).diagnostics = _
      rw [← habsorb.diagnostics, Diagnosed.diagnostics_pure, List.append_nil]
  refine ⟨htake.1, [], [], rfl, ?_⟩
  show (dialect.take d x).diagnostics ++ [] = _
  rw [htake.2, List.nil_append]

theorem load_insert_widened {b : Block} (hb : b.kind ∈ Declaration.entryKinds) (path file : String)
    (before after : FileSet) (first second : Body) :
    Widened (SameBut b) (dialect.about file b)
      (load path (before ++ (file, first ++ second) :: after))
      (load path (before ++ (file, first ++ b.toItem :: second) :: after)) := by
  refine dialect.load_insert (R := Draft.SameBut b) rfl (fun _ _ a h => h.absorb a)
    (fun path names _ _ h => h.resolve path names) (.refl b) (fun hadmits d => ?_) path before after
    first second
  obtain ⟨x, hx, howned⟩ := Declaration.ofBlock_owned hb hadmits file
  have hdeclare : dialect.declare file b = [x] := hx
  have habout : dialect.about file b = x.diagnostics := by
    rw [Dialect.about, if_pos hadmits, hdeclare, List.flatMap_singleton]
  rw [habout, hdeclare]
  exact collect_owned howned d

/-- In a file of its own a block is complained about as anywhere else. -/
theorem diagnostics_load_alone {b : Block} (hb : b.kind ∈ Declaration.entryKinds)
    (path file : String) : (load path [(file, [b.toItem])]).diagnostics = dialect.about file b := by
  obtain ⟨-, before, after, hold, hnew⟩ := load_insert_widened hb path file [] [] [] []
  have hnil : before = [] ∧ after = [] := List.append_eq_nil_iff.1 hold.symm
  rw [hnil.1, hnil.2] at hnew
  simpa using hnew

/-- **A block leaves its siblings alone.** Put the block of a variable, an output or a call, however
broken, at any place of any file. What comes of the files is the same as before, but for the entry
of that block under its own name; and what is complained about is the same as before, with what is
complained about the block by itself put in at one place. -/
theorem siblings_undisturbed {b : Block} (hb : b.kind ∈ ["variable", "output", "module"])
    (path file : String) (before after : FileSet) (first second : Body) :
    let old := load path (before ++ (file, first ++ second) :: after)
    let new := load path (before ++ (file, first ++ .block b.header b.body :: second) :: after)
    old.value.SameBut b new.value ∧
      ∃ earlier later, old.diagnostics = earlier ++ later ∧
        new.diagnostics = earlier ++
          (load path [(file, [.block b.header b.body])]).diagnostics ++ later := by
  intro old new
  have hwidened := load_insert_widened hb path file before after first second
  refine ⟨hwidened.value, ?_⟩
  have halone := diagnostics_load_alone hb path file
  rw [Block.toItem] at halone
  rw [halone]
  exact hwidened.diagnostics

/-- A variable with a type. -/
def sizeVariable (start : Nat) (type : Hcl.Expr) : Block :=
  ⟨⟨⟨"variable", ⟨start, start + 8⟩⟩, [⟨"size", ⟨start + 9, start + 15⟩⟩]⟩,
    [.attr ⟨⟨"type", ⟨start + 18, start + 22⟩⟩, ⟨type, ⟨start + 25, start + 31⟩⟩⟩]⟩

/-- A call without a name. -/
def namelessCall (start : Nat) : Block :=
  ⟨⟨⟨"module", ⟨start, start + 6⟩⟩, [⟨"", ⟨start + 7, start + 9⟩⟩]⟩, []⟩

/-- A second variable of the same name, with a type that makes no sense, comes between a variable
and a call. -/
theorem siblings_undisturbed_variable :
    let b := sizeVariable 40 (.text "many")
    let first : Body := [(sizeVariable 0 (.variable "number")).toItem]
    let second : Body := [(namelessCall 80).toItem]
    let old := load "" [("main.tf", first ++ second)]
    let new := load "" [("main.tf", first ++ .block b.header b.body :: second)]
    b.kind ∈ ["variable", "output", "module"] ∧
      old.diagnostics.summaries = ["Invalid module name"] ∧
      new.diagnostics.summaries = ["Invalid legacy variable type hint", "Invalid module name"] ∧
      old.value.SameBut b new.value := by
  intro b first second old new
  have hb : b.kind ∈ ["variable", "output", "module"] := by decide
  exact ⟨hb, by decide +kernel, by decide +kernel,
    (siblings_undisturbed hb "" "main.tf" [] [] first second).1⟩

end ModuleConfig

end EarlyConfig

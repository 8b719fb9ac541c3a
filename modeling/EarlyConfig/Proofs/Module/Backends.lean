import EarlyConfig.Proofs.FirstTexts
import EarlyConfig.Proofs.Module.VersionRequirements

/-! Which backend a module has. Backends may be defined in several blocks and files. While they are
taken up the first of each type is kept, and each further one of its type is complained about; once
all are known, more than one type is complained about and leaves the module without a backend. What
this comes to is read off the blocks that define backends, in order (`FileSet.backends`), and their
types, in the order in which they come up (`FileSet.backendTypes`): `backend_selection`. -/
namespace EarlyConfig

open Diagnosed (Reports)
open Hcl (Block Body)

/-! ### Blocks -/

/-- A block that defines a backend, with the file it stands in. -/
structure BackendBlock where
  file : String
  block : Block

namespace BackendBlock

variable (b : BackendBlock)

def type : String := b.block.label 0

def range : SourceRange := b.block.range b.file

/-- What the block defines. -/
def decoded : Backend := (Backend.decode b.file b.block).value

def placed : Placed Backend := ⟨b.decoded, b.range⟩

/-- A backend is of the type that its block is labelled with. -/
theorem type_decoded : b.decoded.type = b.type := by
  unfold decoded type Backend.decode
  split
  · rename_i hremote
    exact hremote.symm
  · rfl

end BackendBlock

namespace FileSet

/-- The backend that a block among the settings defines. -/
def backendBy (file : String) (b : Block) : List BackendBlock :=
  if b.kind = "backend" ∧ b.labels.length = 1 then [⟨file, b⟩] else []

/-- The backends that a block of the root defines. -/
def backendsBy (file : String) (b : Block) : List BackendBlock :=
  if b.kind = "terraform" ∧ b.labels.length = 0 then b.body.blocks.flatMap (backendBy file) else []

/-- All blocks that define backends, in order. -/
def backends (files : FileSet) : List BackendBlock :=
  files.flatMap fun (file, body) => body.blocks.flatMap (backendsBy file)

/-- The types of backends, in the order in which they come up. -/
def backendTypes (files : FileSet) : List String :=
  (files.backends.map (·.type)).eraseDups

end FileSet

namespace ModuleConfig

namespace Declaration

/-- Of the blocks among the settings, those that define backends hold one. -/
theorem backends_ofSetting (file : String) (b : Block) :
    (if Schema.terraformBlock.admitsBlock b then
      ((ofSetting file b).value.toList).flatMap backends else []) =
      (FileSet.backendBy file b).map BackendBlock.placed := by
  have hblock : Schema.terraformBlock.block? "backend" = some ⟨"backend", ["type"]⟩ := rfl
  rw [FileSet.backendBy]
  by_cases hkind : b.kind = "backend"
  · rw [Schema.admitsBlock_of_block? (hkind ▸ hblock), ofSetting, hkind]
    by_cases hlabels : b.labels.length = 1
    · simp [hlabels, backends, BackendBlock.placed, BackendBlock.decoded, BackendBlock.range]
    · simp [hlabels]
  · have hnone : ((ofSetting file b).value.toList).flatMap backends = [] := by
      unfold ofSetting
      split
      · rename_i hbackend
        exact absurd hbackend hkind
      · rfl
      · rfl
      · rfl
    rw [hnone, ite_self, if_neg fun h => hkind h.1, List.map_nil]

end Declaration

theorem found_backends (file : String) (b : Block) :
    dialect.found Declaration.backends file b =
      (FileSet.backendsBy file b).map BackendBlock.placed := by
  have hroot : dialect.root.block? "terraform" = some ⟨"terraform", []⟩ := rfl
  rw [FileSet.backendsBy, apply_ite (List.map BackendBlock.placed), List.map_nil]
  refine dialect.found_eq hroot (fun hkind => ?_) fun hkind => ?_
  · rw [List.map_flatMap]
    exact picked_settings (fun _ => rfl) (Declaration.backends_ofSetting file) hkind
  · refine Declaration.picked_eq_nil fun a hhome => ?_
    cases a with
    | backend backend => exact absurd (List.mem_singleton.1 hhome) hkind
    | _ => rfl

theorem declared_backends (files : FileSet) :
    (dialect.declared files).flatMap Declaration.backends =
      files.backends.map BackendBlock.placed := by
  rw [dialect.flatMap_declared, FileSet.backends, List.map_flatMap]
  refine List.flatMap_congr fun f _ => ?_
  rw [List.map_flatMap]
  exact List.flatMap_congr fun b _ => found_backends f.1 b

/-! ### The first of each type -/

namespace Draft

theorem keepBackend_of_known {known : List (String × Placed Backend)} {b : Placed Backend}
    (h : b.value.type ∈ Entries.keys known) : keepBackend known b = known := by
  obtain ⟨c, hc⟩ := Entries.mem_keys.1 h
  rw [keepBackend, Entries.contains, hc, Option.isSome_some, if_pos rfl]

theorem keepBackend_of_new {known : List (String × Placed Backend)} {b : Placed Backend}
    (h : b.value.type ∉ Entries.keys known) :
    keepBackend known b = known ++ [(b.value.type, b)] := by
  rw [keepBackend, Entries.contains, Entries.get?_eq_none.2 h, Entries.put_of_new b h]
  rfl

/-- Types come in the order in which they come up. -/
theorem keys_foldl_keepBackend (bs : List (Placed Backend)) :
    Entries.keys (bs.foldl keepBackend []) = (bs.map (·.value.type)).eraseDups := by
  induction bs using List.reverseRecOn with
  | nil => rfl
  | append_singleton bs b ih =>
    rw [List.foldl_append, List.foldl_cons, List.foldl_nil, List.map_append, List.map_singleton,
      eraseDups_concat, ← ih]
    by_cases hknown : b.value.type ∈ Entries.keys (bs.foldl keepBackend [])
    · have hmem : b.value.type ∈ bs.map (·.value.type) := by
        rwa [ih, List.mem_eraseDups] at hknown
      rw [keepBackend_of_known hknown, if_pos hmem]
    · have hmem : b.value.type ∉ bs.map (·.value.type) := by
        rwa [ih, List.mem_eraseDups] at hknown
      rw [keepBackend_of_new hknown, if_neg hmem]
      exact List.map_append

theorem nodup_keys_foldl_keepBackend (bs : List (Placed Backend)) :
    (Entries.keys (bs.foldl keepBackend [])).Nodup := by
  refine List.foldlRecOn bs keepBackend (motive := fun known => (Entries.keys known).Nodup) .nil ?_
  intro known hknown b _
  unfold keepBackend
  split
  · exact hknown
  · exact Entries.nodup_keys_put _ b hknown

/-- Under its type stands the first backend of a type. -/
theorem get?_foldl_keepBackend (bs : List (Placed Backend))
    (known : List (String × Placed Backend)) (type : String) :
    Entries.get? type (bs.foldl keepBackend known) =
      (Entries.get? type known).or (bs.find? fun b => b.value.type = type) := by
  induction bs generalizing known with
  | nil => simp
  | cons b rest ih =>
    rw [List.foldl_cons, ih, keepBackend, Entries.contains]
    by_cases htype : b.value.type = type
    · subst htype
      cases hget : Entries.get? b.value.type known <;> simp [hget]
    · cases hget : Entries.get? b.value.type known <;> simp [htype]

/-- Each backend either is the first of its type or is complained about. -/
theorem length_repeatedBackends (bs : List (Placed Backend))
    (known : List (String × Placed Backend)) :
    (repeatedBackends known bs).length + (bs.foldl keepBackend known).length =
      bs.length + known.length := by
  induction bs generalizing known with
  | nil => simp [repeatedBackends]
  | cons b rest ih =>
    rw [repeatedBackends, List.length_append, List.foldl_cons, List.length_cons]
    have hrest := ih (keepBackend known b)
    by_cases hknown : b.value.type ∈ Entries.keys known
    · have hcontains : Entries.contains b.value.type known = true := by
        simpa [Entries.contains, Option.isSome_iff_exists] using Entries.mem_keys.1 hknown
      rw [if_pos hcontains, List.length_singleton, keepBackend_of_known hknown]
      rw [keepBackend_of_known hknown] at hrest
      omega
    · have hcontains : Entries.contains b.value.type known = false := by
        rw [Entries.contains, Entries.get?_eq_none.2 hknown, Option.isSome_none]
      rw [hcontains, if_neg Bool.false_ne_true, List.length_nil]
      rw [keepBackend_of_new hknown, List.length_append, List.length_singleton] at hrest
      rw [keepBackend_of_new hknown]
      omega

end Draft

section

variable (files : FileSet)

theorem collected_backends :
    (dialect.collected files).backends =
      (files.backends.map BackendBlock.placed).foldl Draft.keepBackend [] := by
  rw [collected_eq, ← declared_backends]
  rfl

theorem keys_collected_backends :
    Entries.keys (dialect.collected files).backends = files.backendTypes := by
  rw [collected_backends, Draft.keys_foldl_keepBackend, List.map_map, FileSet.backendTypes]
  refine congrArg List.eraseDups (List.map_congr_left fun b _ => ?_)
  exact b.type_decoded

/-- The backend that was kept under a type is that of the first block of the type. -/
theorem exists_first {type : String} {backend : Placed Backend}
    (h : (type, backend) ∈ (dialect.collected files).backends) :
    ∃ b, files.backends.find? (·.type = type) = some b ∧ backend = b.placed := by
  have hnodup : (Entries.keys (dialect.collected files).backends).Nodup := by
    rw [collected_backends]
    exact Draft.nodup_keys_foldl_keepBackend _
  have hget := Entries.get?_of_mem hnodup h
  rw [collected_backends, Draft.get?_foldl_keepBackend, List.find?_map] at hget
  simp only [Entries.get?, Option.none_or, Option.map_eq_some_iff] at hget
  obtain ⟨b, hfind, rfl⟩ := hget
  refine ⟨b, ?_, rfl⟩
  simpa [Function.comp_def, BackendBlock.placed, BackendBlock.type_decoded] using hfind

end

/-! ### Complaints -/

namespace Draft

theorem mem_repeatedBackends {known : List (String × Placed Backend)} {bs : List (Placed Backend)}
    {e : Diagnostic} (h : e ∈ repeatedBackends known bs) :
    ∃ b ∈ bs, e = multipleBackends b := by
  induction bs generalizing known with
  | nil => cases h
  | cons b rest ih =>
    rcases List.mem_append.1 h with h | h
    · split at h
      · exact ⟨b, List.mem_cons_self, List.mem_singleton.1 h⟩
      · cases h
    · obtain ⟨c, hc, heq⟩ := ih h
      exact ⟨c, List.mem_cons_of_mem _ hc, heq⟩

/-- Of the complaints about a declaration that is taken up, those about backends. -/
theorem filter_diagnostics_absorb (d : Draft) (a : Declaration) :
    ((d.absorb a).diagnostics.filter fun e => e.summary = "Multiple backend definitions") =
      repeatedBackends d.backends a.backends := by
  cases a with
  | backend b =>
    rw [absorb, diagnostics_addBackend, Declaration.backends, List.filter_eq_self]
    intro e he
    obtain ⟨c, -, rfl⟩ := mem_repeatedBackends he
    rfl
  | required entries =>
    -- Entries that are required complain about sources only.
    have hreports : Reports (·.summary = RequiredProvider.sourceSummary)
        (entries.foldlM addRequired d) :=
      .foldlM (fun d p => (RequiredProvider.mergeSource_reports _ p).bind fun _ => .pure) _ _
    exact Diagnostics.filter_summary hreports _
  | _ => rfl

/-- Repeated backends are complained about one by one, whatever else is taken up. -/
theorem filter_diagnostics_foldlM_absorb (ds : List Declaration) (d : Draft) :
    ((ds.foldlM absorb d).diagnostics.filter fun e =>
        e.summary = "Multiple backend definitions") =
      repeatedBackends d.backends (ds.flatMap Declaration.backends) := by
  induction ds generalizing d with
  | nil => rfl
  | cons a rest ih =>
    have hbackends : (d.plus [a]).backends = a.backends.foldl keepBackend d.backends := by
      simp only [plus, List.flatMap_singleton]
    rw [List.foldlM_cons, Diagnosed.diagnostics_bind, List.filter_append,
      filter_diagnostics_absorb, value_absorb, ih, hbackends, List.flatMap_cons,
      repeatedBackends_append]

end Draft

section

variable (path : String) (files : FileSet)

/-- Complaints with a summary that nothing else has but what is said about the backends kept. -/
theorem filter_summary_resolve {summary : String} (hcore : summary ≠ Diagnostic.versionSummary)
    (hsource : summary ≠ "Invalid provider source")
    (hversion : summary ≠ "Invalid provider version constraint") :
    ((resolve path files.sortedNames (dialect.collected files)).diagnostics.filter
        fun d => d.summary = summary) =
      (theBackend (dialect.collected files).backends).diagnostics.filter
        fun d => d.summary = summary := by
  have hnames : (files.localNames.flatMap fun name =>
      ((files.sourceComplaint? name).toList.filter fun d => d.summary = summary) ++
        (files.versionComplaints name).filter fun d => d.summary = summary) = [] := by
    refine List.flatMap_eq_nil_iff.2 fun name _ => ?_
    rw [Diagnostics.filter_summary FileSet.summary_of_mem_sourceComplaint, if_neg hsource.symm,
      Diagnostics.filter_summary FileSet.summary_of_mem_versionComplaints, if_neg hversion.symm,
      List.append_nil]
  rw [filter_diagnostics_resolve, hnames, List.append_nil,
    Diagnostics.filter_summary summary_of_mem_cores, if_neg hcore.symm, List.nil_append]

theorem repeated_backends_eq :
    ((load path files).diagnostics.filter fun d => d.summary = "Multiple backend definitions") =
      repeatedBackends [] (files.backends.map BackendBlock.placed) := by
  have hearly : ∀ d : Diagnostic, d.Early →
      decide (d.summary = "Multiple backend definitions") = false := by
    intro d hd
    exact decide_eq_false fun hsummary => hd.summary (by rw [hsummary]; decide)
  rw [filter_diagnostics_rounds path files hearly, Draft.filter_diagnostics_foldlM_absorb,
    declared_backends, filter_summary_resolve path files (by decide) (by decide) (by decide),
    Diagnostics.filter_summary summary_of_mem_theBackend, if_neg (by decide), List.append_nil]

theorem conflicting_backends_eq :
    ((load path files).diagnostics.filter
        fun d => d.summary = "Unable to parse backend configuration") =
      (theBackend (dialect.collected files).backends).diagnostics := by
  rw [filter_diagnostics_load path files,
    filter_summary_resolve path files (by decide) (by decide) (by decide),
    Diagnostics.filter_summary summary_of_mem_theBackend, if_pos rfl]
  · intro d hd
    exact decide_eq_false fun hsummary => hd.summary (by rw [hsummary]; decide)
  · intro d hd
    exact decide_eq_false fun hsummary => absurd (hsummary ▸ hd) (by decide)

end

/-! ### Selection -/

section

variable {files : FileSet}

theorem backendTypes_eq_singleton {b : BackendBlock} {rest : List BackendBlock}
    (h : files.backends = b :: rest) :
    files.backendTypes = [b.type] ↔ ∀ c ∈ rest, c.type = b.type := by
  rw [FileSet.backendTypes, h, List.map_cons, List.eraseDups_cons, List.cons_inj_right]
  constructor
  · intro hnil c hc
    refine Decidable.not_not.1 fun hne => ?_
    have hmem : c.type ∈ ((rest.map (·.type)).filter fun t => !t == b.type).eraseDups := by
      rw [List.mem_eraseDups, List.mem_filter]
      exact ⟨List.mem_map_of_mem hc, by simpa using hne⟩
    rw [hnil] at hmem
    cases hmem
  · intro hall
    have hnone : ((rest.map (·.type)).filter fun t => !t == b.type) = [] := by
      refine List.filter_eq_nil_iff.2 fun t ht => ?_
      obtain ⟨c, hc, rfl⟩ := List.mem_map.1 ht
      simp [hall c hc]
    rw [hnone]
    rfl

/-- The first block is the first of its type. -/
theorem find?_type_of_cons {b : BackendBlock} {rest : List BackendBlock}
    (h : files.backends = b :: rest) : files.backends.find? (·.type = b.type) = some b := by
  simp [h]

theorem backend_eq_some_iff (path : String) {backend : Backend} :
    (load path files).value.backend = some backend ↔
      ∃ b rest, files.backends = b :: rest ∧ (∀ c ∈ rest, c.type = b.type) ∧
        backend = b.decoded := by
  have hload : (load path files).value.backend =
      (theBackend (dialect.collected files).backends).value := rfl
  have hkeys := keys_collected_backends files
  rw [hload]
  constructor
  · intro h
    obtain ⟨type, kept, hkept, rfl⟩ : ∃ type kept,
        (dialect.collected files).backends = [(type, kept)] ∧ backend = kept.value := by
      unfold theBackend at h
      split at h
      · cases h
      · rename_i type kept hkept
        exact ⟨type, kept, hkept, (Option.some.inj h).symm⟩
      · cases h
    have htypes : files.backendTypes = [type] := by rw [← hkeys, hkept]; rfl
    obtain ⟨first, hfirst, rfl⟩ := exists_first files (hkept ▸ List.mem_singleton_self _)
    cases hblocks : files.backends with
    | nil =>
      rw [hblocks] at hfirst
      cases hfirst
    | cons b rest =>
      -- The only type is that of the first block, which is therefore the first of the type.
      have htype : type = b.type := by
        rw [FileSet.backendTypes, hblocks, List.map_cons, List.eraseDups_cons] at htypes
        exact (List.head_eq_of_cons_eq htypes).symm
      subst htype
      have hb : first = b := by
        rw [find?_type_of_cons hblocks] at hfirst
        exact (Option.some.inj hfirst).symm
      exact ⟨b, rest, rfl, (backendTypes_eq_singleton hblocks).1 htypes, hb ▸ rfl⟩
  · rintro ⟨b, rest, hblocks, hall, rfl⟩
    rw [(backendTypes_eq_singleton hblocks).2 hall] at hkeys
    obtain ⟨e, he, htype⟩ := List.map_eq_singleton_iff.1 hkeys
    have hmem : e ∈ (dialect.collected files).backends := he ▸ List.mem_singleton_self _
    obtain ⟨first, hfirst, hkept⟩ := exists_first files hmem
    rw [htype, find?_type_of_cons hblocks] at hfirst
    cases hfirst
    rw [he]
    show some e.2.value = _
    rw [hkept]
    rfl

/-- Two types are reported with the first block of each. -/
theorem conflict_of_types {first second : String} {others : List String}
    (h : files.backendTypes = first :: second :: others) :
    ∃ b c, files.backends.find? (·.type = first) = some b ∧
      files.backends.find? (·.type = second) = some c ∧
      (theBackend (dialect.collected files).backends).diagnostics =
        [conflictingBackends b.placed c.placed files.backendTypes] := by
  have hkeys := keys_collected_backends files
  obtain ⟨d, ds, hkept, hd, hds⟩ := List.map_eq_cons_iff.1 (hkeys.trans h)
  obtain ⟨e, es, rfl, he, -⟩ := List.map_eq_cons_iff.1 hds
  have hdmem : d ∈ (dialect.collected files).backends := by
    rw [hkept]
    exact List.mem_cons_self
  have hemem : e ∈ (dialect.collected files).backends := by
    rw [hkept]
    exact List.mem_cons_of_mem _ List.mem_cons_self
  obtain ⟨b, hb, hbkept⟩ := exists_first files hdmem
  obtain ⟨c, hc, hckept⟩ := exists_first files hemem
  refine ⟨b, c, hd ▸ hb, he ▸ hc, ?_⟩
  rw [← hkeys, ← hbkept, ← hckept, hkept]
  rfl

theorem conflict_of_length_lt (h : files.backendTypes.length < 2) :
    (theBackend (dialect.collected files).backends).diagnostics = [] := by
  have hlength : (dialect.collected files).backends.length < 2 := by
    rw [← keys_collected_backends, Entries.keys, List.length_map] at h
    exact h
  unfold theBackend
  split
  · rfl
  · rfl
  · rename_i hkept
    rw [hkept] at hlength
    simp only [List.length_cons] at hlength
    omega

end

/-- **The backend of a module is the one that all definitions agree on.** Whatever files a module
has, it has a backend just if there are blocks that define one and all are of one type; it is then
what the first of them defines. Every block that is not the first of its type is reported as a
repeated definition, so there are as many such errors as there are blocks more than types. If there
are two types or more, this is reported once, with the first block of the second type as subject and
the first block of the first as context, and otherwise it is not reported. -/
theorem backend_selection (path : String) (files : FileSet) :
    (∀ backend, (load path files).value.backend = some backend ↔
      ∃ b rest, files.backends = b :: rest ∧ (∀ c ∈ rest, c.type = b.type) ∧
        backend = b.decoded) ∧
    (((load path files).diagnostics.filter fun d =>
        d.summary = "Multiple backend definitions").length + files.backendTypes.length =
      files.backends.length ∧
    ∀ d ∈ (load path files).diagnostics, d.summary = "Multiple backend definitions" →
      d.severity = .error ∧ ∃ b ∈ files.backends, d.subject = some b.range) ∧
    (files.backendTypes.length < 2 →
      ((load path files).diagnostics.filter fun d =>
        d.summary = "Unable to parse backend configuration") = []) ∧
    ∀ first second others, files.backendTypes = first :: second :: others →
      ∃ b c, files.backends.find? (·.type = first) = some b ∧
        files.backends.find? (·.type = second) = some c ∧
        ((load path files).diagnostics.filter fun d =>
          d.summary = "Unable to parse backend configuration") = [{
            severity := .error
            summary := "Unable to parse backend configuration"
            detail := "Multiple backend definitions: " ++ ", ".intercalate files.backendTypes
            subject := some c.range
            context := some b.range }] := by
  refine ⟨fun backend => backend_eq_some_iff path, ⟨?_, ?_⟩, fun htypes => ?_,
    fun first second others htypes => ?_⟩
  · have hlength := Draft.length_repeatedBackends (files.backends.map BackendBlock.placed) []
    rw [← collected_backends, List.length_map, List.length_nil, Nat.add_zero] at hlength
    have hkeys : (dialect.collected files).backends.length = files.backendTypes.length := by
      rw [← keys_collected_backends, Entries.keys, List.length_map]
    rw [repeated_backends_eq, ← hkeys, hlength]
  · intro d hd hsummary
    have hmem : d ∈ (load path files).diagnostics.filter fun d =>
        d.summary = "Multiple backend definitions" :=
      List.mem_filter.2 ⟨hd, decide_eq_true hsummary⟩
    rw [repeated_backends_eq] at hmem
    obtain ⟨placed, hplaced, rfl⟩ := Draft.mem_repeatedBackends hmem
    obtain ⟨b, hb, rfl⟩ := List.mem_map.1 hplaced
    exact ⟨rfl, b, hb, rfl⟩
  · rw [conflicting_backends_eq, conflict_of_length_lt htypes]
  · rw [conflicting_backends_eq]
    exact conflict_of_types htypes

/-- Two files with three backends of two types. -/
def mixedTexts : List (String × String) :=
  [("a.tf", "terraform \x7b\nbackend \"s3\" \x7b\x7d\nbackend \"s3\" \x7b\x7d\n\x7d\n"),
    ("b.tf", "terraform \x7b\nbackend \"remote\" \x7b\x7d\n\x7d\n")]

/-- The first of them on its own defines one backend, and does so twice; together they leave the
module without one. -/
theorem backend_selection_mixed :
    (load "" (FileSet.ofTexts (mixedTexts.take 1))).value.backend = some ⟨"s3", .unknown⟩ ∧
      (load "" (FileSet.ofTexts mixedTexts)).value.backend = none ∧
      ((load "" (FileSet.ofTexts mixedTexts)).diagnostics.filter fun d =>
        d.summary = "Multiple backend definitions").length = 1 ∧
      ∃ d, ((load "" (FileSet.ofTexts mixedTexts)).diagnostics.filter fun d =>
          d.summary = "Unable to parse backend configuration") = [d] ∧
        d.subject.map (·.filename) = some "b.tf" ∧ d.context.map (·.filename) = some "a.tf" := by
  have hfacts :
      ((FileSet.ofTexts (mixedTexts.take 1)).backends.map fun b => (b.type, b.decoded)) =
          [("s3", ⟨"s3", .unknown⟩), ("s3", ⟨"s3", .unknown⟩)] ∧
        ((FileSet.ofTexts mixedTexts).backends.map fun b => (b.type, b.file)) =
          [("s3", "a.tf"), ("s3", "a.tf"), ("remote", "b.tf")] := by
    decide +kernel
  obtain ⟨honce, hall⟩ := hfacts
  simp only [List.map_eq_cons_iff, List.map_eq_nil_iff, Prod.mk.injEq] at honce hall
  obtain ⟨b, -, hblocks, ⟨hb, hdecoded⟩, c, -, rfl, ⟨hc, -⟩, rfl⟩ := honce
  obtain ⟨x, -, hthree, ⟨hx, hxfile⟩, y, -, rfl, ⟨hy, -⟩, z, -, rfl, ⟨hz, hzfile⟩, rfl⟩ := hall
  have htypes : (FileSet.ofTexts mixedTexts).backendTypes = ["s3", "remote"] := by
    rw [FileSet.backendTypes, hthree]
    simp only [List.map_cons, List.map_nil, hx, hy, hz]
    decide
  obtain ⟨hsome, ⟨hcount, -⟩, -, hconflict⟩ :=
    backend_selection "" (FileSet.ofTexts mixedTexts)
  obtain ⟨first, second, hfirst, hsecond, hreported⟩ := hconflict _ _ _ htypes
  refine ⟨((backend_selection "" _).1 _).2 ⟨b, [c], hblocks, ?_, hdecoded.symm⟩, ?_, ?_,
    _, hreported, ?_, ?_⟩
  · simp [hb, hc]
  · refine Option.eq_none_iff_forall_ne_some.2 fun backend hbackend => ?_
    obtain ⟨d, rest, hcons, hsame, -⟩ := (hsome backend).1 hbackend
    cases hthree.symm.trans hcons
    have hremote := hsame z (by simp)
    rw [hx, hz] at hremote
    exact absurd hremote (by decide)
  · rw [htypes, hthree] at hcount
    exact Nat.add_right_cancel hcount
  · have hlast : z = second := by simpa [hthree, hx, hy, hz] using hsecond
    exact congrArg some (hlast ▸ hzfile)
  · have hhead : x = first := by simpa [hthree, hx] using hfirst
    exact congrArg some (hhead ▸ hxfile)

end ModuleConfig

end EarlyConfig

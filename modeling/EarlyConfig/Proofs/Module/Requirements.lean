import EarlyConfig.Dialect.Module.Resolve
import EarlyConfig.Proofs.Collecting
import EarlyConfig.Proofs.LookUps

/-! What the requirements collected from a module look like, whatever its files say: each local name
has one requirement, and the aliases expected under it are aliases of that name and no other
(`collected_coherent`). -/
namespace EarlyConfig

/-! ### Entries of a block -/

namespace RequiredProvider

/-- The aliases are those of the entry's own name. -/
def OwnAliases (p : RequiredProvider) : Prop :=
  ∀ ref ∈ p.aliases, ref.localName = p.name

theorem decodeAlias_localName {file name : String} {e : Hcl.Located Hcl.Expr} {ref : ProviderRef}
    (h : (decodeAlias file name e).value = some ref) : ref.localName = name := by
  unfold decodeAlias at h
  split at h
  · simp at h
  · rename_i given _
    by_cases hn : given.localName = name
    · simp only [if_pos hn, Diagnosed.value_pure, Option.some.injEq] at h
      rw [← h, hn]
    · simp [if_neg hn] at h

theorem decodeAliases_localName {file name : String} {e : Hcl.Located Hcl.Expr} :
    ∀ ref ∈ (decodeAliases file name e).value, ref.localName = name := by
  intro ref href
  unfold decodeAliases at href
  split at href
  · simp only [Diagnosed.value_bind, Diagnosed.value_pure, Diagnosed.value_mapM,
      List.mem_filterMap, List.mem_map, id_eq] at href
    obtain ⟨_, ⟨item, -, rfl⟩, hitem⟩ := href
    exact decodeAlias_localName hitem
  · simp at href

theorem addSetting_ownAliases {file : String} {p : RequiredProvider} (hp : p.OwnAliases)
    (key value : Hcl.Located Hcl.Expr) : (p.addSetting file key value).value.OwnAliases := by
  unfold addSetting
  dsimp only
  split
  · split <;> exact hp
  · split <;> exact hp
  · intro ref href
    rcases List.mem_append.1 href with href | href
    · exact hp ref href
    · exact decodeAliases_localName ref href
  · exact hp

theorem decodeEntry_ownAliases {file : String} {a : Hcl.Attribute} {p : RequiredProvider}
    (h : (decodeEntry file a).value = some p) : p.OwnAliases := by
  unfold decodeEntry at h
  dsimp only at h
  split at h
  · simp only [Diagnosed.value_bind, Diagnosed.value_pure, Diagnosed.value_foldlM,
      Option.some.injEq] at h
    subst h
    exact List.foldlRecOn _ _ (motive := OwnAliases) (by simp [OwnAliases])
      fun p hp item _ => addSetting_ownAliases hp item.1 item.2
  · split at h
    · simp only [Diagnosed.value_pure, Option.some.injEq] at h
      subst h
      simp [OwnAliases]
    · simp at h

theorem decode_ownAliases {file : String} {b : Hcl.Block} :
    ∀ p ∈ (decode file b).value, p.OwnAliases := by
  intro p hp
  unfold decode at hp
  simp only [Diagnosed.value_bind, Diagnosed.value_pure, Diagnosed.value_mapM, List.mem_filterMap,
    List.mem_map, id_eq] at hp
  obtain ⟨_, ⟨a, -, rfl⟩, ha⟩ := hp
  exact decodeEntry_ownAliases ha

end RequiredProvider

namespace ModuleConfig

/-! ### Declarations -/

/-- Entries that are required expect only aliases of their own. -/
def Declaration.Coherent : Declaration → Prop
  | .required entries => ∀ p ∈ entries, p.OwnAliases
  | _ => True

namespace Declaration

theorem ofSetting_coherent {file : String} {b : Hcl.Block} {a : Declaration}
    (h : (ofSetting file b).value = some a) : a.Coherent := by
  unfold ofSetting at h
  split at h
  · cases h
    trivial
  · cases h
    trivial
  · cases h
    exact RequiredProvider.decode_ownAliases
  · cases h

theorem ofSettings_coherent {file : String} {b : Hcl.Block} {a : Declaration} :
    ∀ x ∈ ofSettings file b, x.value = some a → a.Coherent := by
  intro x hx ha
  rcases List.mem_cons.1 hx with rfl | hx
  · cases ha
  rcases List.mem_cons.1 hx with rfl | hx
  · simp only [ofCoreVersion, Diagnosed.value_bind, Diagnosed.value_pure,
      Option.map_eq_some_iff] at ha
    obtain ⟨_, -, rfl⟩ := ha
    trivial
  · obtain ⟨nested, -, rfl⟩ := List.mem_map.1 hx
    exact ofSetting_coherent ha

/-- No block but one of settings requires entries. -/
theorem ofBlock_coherent (file : String) (b : Hcl.Block) :
    ∀ x ∈ ofBlock file b, ∀ a, x.value = some a → a.Coherent := by
  intro x hx a ha
  unfold ofBlock at hx
  split at hx
  · exact ofSettings_coherent x hx ha
  · cases List.mem_singleton.1 hx
    cases ha
    trivial
  · cases List.mem_singleton.1 hx
    cases ha
    trivial
  · cases List.mem_singleton.1 hx
    cases ha
    trivial
  · cases List.mem_singleton.1 hx
    cases ha
    trivial
  · cases List.mem_singleton.1 hx
    rw [ofVariable, Diagnosed.value_bind] at ha
    split at ha <;> cases ha
    trivial
  · cases List.mem_singleton.1 hx
    rw [ofOutput, Diagnosed.value_bind] at ha
    split at ha <;> cases ha
    trivial
  · cases List.mem_singleton.1 hx
    rw [ofCall, Diagnosed.value_bind] at ha
    split at ha <;> cases ha
    trivial
  · cases hx

end Declaration

/-! ### Drafts -/

namespace Draft

/-- Each local name has one requirement, with aliases of that name only. -/
structure Coherent (d : Draft) : Prop where
  names : (Entries.keys d.requirements).Nodup
  aliases : ∀ n r, (n, r) ∈ d.requirements → ∀ ref ∈ r.aliases, ref.localName = n

theorem Coherent.requirement {d : Draft} (h : d.Coherent) (n : String) :
    ∀ ref ∈ (d.requirement n).aliases, ref.localName = n := by
  unfold Draft.requirement
  cases hr : Entries.get? n d.requirements with
  | none => simp
  | some r => exact h.aliases n r (Entries.mem_of_get? hr)

theorem Coherent.setRequirement {d : Draft} (h : d.Coherent) {n : String} {r : Requirement}
    (hr : ∀ ref ∈ r.aliases, ref.localName = n) : (d.setRequirement n r).Coherent where
  names := Entries.nodup_keys_put n r h.names
  aliases n' r' hmem := by
    rcases Entries.mem_put hmem with heq | hmem
    · cases heq
      exact hr
    · exact h.aliases n' r' hmem

theorem Coherent.addRequired {d : Draft} (h : d.Coherent) {p : RequiredProvider}
    (hp : p.OwnAliases) : (d.addRequired p).value.Coherent := by
  refine h.setRequirement fun ref href => ?_
  rcases List.mem_append.1 href with href | href
  · exact h.requirement p.name ref href
  · exact hp ref href

theorem Coherent.addProviderConfig {d : Draft} (h : d.Coherent) (c : ProviderConfig) :
    (d.addProviderConfig c).Coherent := by
  have hset := h.setRequirement (n := c.ref.localName)
    (r := { d.requirement c.ref.localName with
      versions := (d.requirement c.ref.localName).versions ++ c.version.toList })
    (h.requirement c.ref.localName)
  exact ⟨hset.names, hset.aliases⟩

theorem Coherent.addBackend {d : Draft} (h : d.Coherent) (backend : Placed Backend) :
    (d.addBackend backend).value.Coherent := by
  unfold Draft.addBackend
  dsimp only
  split
  · exact h
  · exact ⟨h.names, h.aliases⟩

theorem Coherent.absorb {d : Draft} (h : d.Coherent) {a : Declaration} (ha : a.Coherent) :
    (d.absorb a).value.Coherent := by
  cases a with
  | required entries =>
    rw [Draft.absorb, Diagnosed.value_foldlM]
    exact List.foldlRecOn entries _ h fun d hd p hp => hd.addRequired (ha p hp)
  | providerConfig c => exact h.addProviderConfig c
  | backend b => exact h.addBackend b
  | _ => exact ⟨h.names, h.aliases⟩

end Draft

theorem collected_coherent (files : FileSet) : (dialect.collected files).Coherent :=
  dialect.collected_induction Declaration.Coherent Draft.Coherent ⟨.nil, fun _ _ h => nomatch h⟩
    Declaration.ofBlock_coherent (fun _ _ hd ha => hd.absorb ha) files

end ModuleConfig

end EarlyConfig

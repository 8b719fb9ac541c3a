import EarlyConfig.FileSet
import EarlyConfig.Hcl.Read.Body

/-! What is known of a body because it was read from a text. A reader that succeeds says something
about its result (`Read.Gives`); readers put together say what their parts say. The main statement
is that no attribute of a body that was read lacks a name (`Body.named_of_ofText?`). -/
namespace EarlyConfig

namespace Hcl

/-! ### Results of readers -/

namespace Read

/-- Whatever the reader gives is such. -/
def Gives (p : Reader α) (P : α → Prop) : Prop :=
  ∀ c a c', p c = some (a, c') → P a

variable {p q : Reader α} {P : α → Prop} {Q : β → Prop}

theorem gives_true (p : Reader α) : Gives p fun _ => True :=
  fun _ _ _ _ => trivial

theorem gives_pure {a : α} (h : P a) : Gives (pure a) P := by
  intro c a' c' heq
  cases heq
  exact h

theorem gives_failure : Gives (failure : Reader α) P := by
  intro c a c' heq
  cases heq

theorem Gives.bind {f : α → Reader β} (hp : Gives p P) (hf : ∀ a, P a → Gives (f a) Q) :
    Gives (p >>= f) Q := by
  intro c b c'' heq
  obtain ⟨⟨a, c'⟩, ha, hb⟩ := Option.bind_eq_some_iff.1 heq
  exact hf a (hp c a c' ha) c' b c'' hb

/-- What comes first says nothing about the result. -/
theorem gives_bind {f : α → Reader β} (hf : ∀ a, Gives (f a) Q) : Gives (p >>= f) Q :=
  (gives_true p).bind fun a _ => hf a

theorem Gives.map {f : α → β} (hp : Gives p P) (hf : ∀ a, P a → Q (f a)) : Gives (f <$> p) Q := by
  rw [map_eq_pure_bind]
  exact hp.bind fun a ha => gives_pure (hf a ha)

theorem Gives.orElse (hp : Gives p P) (hq : Gives q P) : Gives (p <|> q) P := by
  intro c a c' heq
  have h : (p c).orElse (fun _ => q c) = some (a, c') := heq
  cases hpc : p c with
  | none =>
    rw [hpc] at h
    exact hq c a c' h
  | some r =>
    rw [hpc] at h
    exact hp c a c' (hpc.trans h)

theorem Gives.seqLeft (hp : Gives p P) (r : Reader γ) : Gives (p <* r) P := by
  rw [seqLeft_eq_bind]
  exact hp.bind fun a ha => gives_bind fun _ => gives_pure ha

theorem Gives.seqRight (r : Reader γ) (hp : Gives p P) : Gives (r *> p) P := by
  rw [seqRight_eq_bind]
  exact gives_bind fun _ => hp

theorem Gives.opt (hp : Gives p P) : Gives (opt p) fun r => ∀ a ∈ r, P a :=
  (hp.map (by simp)).orElse (gives_pure (by simp))

theorem Gives.upTo (hp : Gives p P) (n : Nat) : Gives (upTo p n) fun as => ∀ a ∈ as, P a := by
  induction n with
  | zero => exact gives_pure (by simp)
  | succ n ih =>
    refine hp.opt.bind fun r hr => ?_
    cases r with
    | none => exact gives_pure (by simp)
    | some a =>
      refine ih.bind fun as has => gives_pure fun a' ha' => ?_
      rcases List.mem_cons.1 ha' with rfl | ha'
      · exact hr a' rfl
      · exact has a' ha'

theorem Gives.many (hp : Gives p P) : Gives (many p) fun as => ∀ a ∈ as, P a :=
  gives_bind fun n => hp.upTo n

theorem Gives.located (hp : Gives p P) : Gives (located p) fun l => P l.value :=
  gives_bind fun _ => hp.bind fun _ ha => gives_bind fun _ => gives_pure ha

theorem Gives.whole (hp : Gives p P) {s : String} {a : α} (h : whole p s = some a) : P a := by
  unfold Read.whole at h
  split at h
  · rename_i hread
    cases h
    exact hp _ _ _ hread
  · cases h

end Read

/-! ### Names of attributes -/

/-- Every attribute in it, at every depth, has a name. -/
inductive Item.Named : Item → Prop
  | attr {a : Attribute} (h : a.key.value ≠ "") : Named (.attr a)
  | block {header : Header} {body : Body} (h : ∀ i ∈ body, Named i) : Named (.block header body)

def Body.Named (b : Body) : Prop :=
  ∀ i ∈ b, Item.Named i

theorem Body.Named.attribute {b : Body} (h : b.Named) {a : Attribute} (ha : a ∈ b.attributes) :
    a.key.value ≠ "" := by
  obtain ⟨i, hi, hattr⟩ := List.mem_filterMap.1 ha
  have hnamed := h i hi
  cases i <;> cases hattr
  cases hnamed with
  | attr hname => exact hname

theorem Body.Named.block {b : Body} (h : b.Named) {inner : Block} (hinner : inner ∈ b.blocks) :
    inner.body.Named := by
  obtain ⟨i, hi, hblock⟩ := List.mem_filterMap.1 hinner
  have hnamed := h i hi
  cases i <;> cases hblock
  cases hnamed with
  | block hbody => exact hbody

namespace Read

theorem identifier_ne_empty : Gives identifier (· ≠ "") :=
  gives_bind fun first => gives_bind fun others => gives_pure (by simp)

theorem attributeAfter_key (key : Located String) : Gives (attributeAfter key) (·.key = key) :=
  gives_bind fun _ => gives_bind fun _ => gives_bind fun _ => gives_pure rfl

theorem oneLine_named : Gives oneLine Body.Named := by
  have hattr : Gives attr fun a => a.key.value ≠ "" := by
    refine identifier_ne_empty.located.bind fun key hkey => gives_bind fun _ => ?_
    intro c a c' h
    rw [attributeAfter_key key c a c' h]
    exact hkey
  refine gives_bind fun _ => (hattr.seqLeft space).opt.bind fun r hr => gives_pure ?_
  intro i hi
  obtain ⟨a, ha, rfl⟩ := List.mem_map.1 hi
  exact .attr (hr a (Option.mem_toList.1 ha))

theorem structures_named {inner : Reader Body} (hinner : Gives inner Body.Named) :
    Gives (structures inner) Body.Named := by
  have hitem : Gives (structures.item inner) Item.Named := by
    refine identifier_ne_empty.located.bind fun key hkey => gives_bind fun _ => ?_
    refine Gives.orElse ?_ ?_
    · refine (attributeAfter_key key).map fun a ha => .attr ?_
      rw [ha]
      exact hkey
    · exact gives_bind fun _ => gives_bind fun _ => hinner.bind fun body hbody =>
        gives_bind fun _ => gives_pure (.block hbody)
  refine gives_bind fun _ => ?_
  refine ((((hitem.seqLeft _).seqLeft _).seqLeft _).seqLeft _).many.bind fun items hitems => ?_
  split
  · exact gives_pure hitems
  · exact gives_failure

theorem blockBody_named (depth : Nat) : Gives (blockBody depth) Body.Named := by
  induction depth with
  | zero => exact gives_failure
  | succ depth ih => exact ((structures_named ih).seqRight restOfLine).orElse oneLine_named

end Read

theorem Body.named_of_ofText? {s : String} {b : Body} (h : Body.ofText? s = some b) : b.Named :=
  Read.Gives.whole (Read.gives_bind fun n => Read.structures_named (Read.blockBody_named n)) h

end Hcl

namespace FileSet

/-- Each body was read from a text. -/
def Parsed (files : FileSet) : Prop :=
  ∀ f ∈ files, ∃ text, Hcl.Body.ofText? text = some f.2

theorem Parsed.named {files : FileSet} (h : files.Parsed) {f : String × Hcl.Body} (hf : f ∈ files) :
    f.2.Named := by
  obtain ⟨text, htext⟩ := h f hf
  exact Hcl.Body.named_of_ofText? htext

/-- The files of texts, with nothing in those that cannot be read. -/
def ofTexts (texts : List (String × String)) : FileSet :=
  texts.map fun (name, text) => (name, (Hcl.Body.ofText? text).getD [])

theorem parsed_ofTexts {texts : List (String × String)}
    (h : texts.all fun t => (Hcl.Body.ofText? t.2).isSome) : (ofTexts texts).Parsed := by
  intro f hf
  obtain ⟨t, ht, rfl⟩ := List.mem_map.1 hf
  obtain ⟨body, hbody⟩ := Option.isSome_iff_exists.1 (List.all_eq_true.1 h t ht)
  exact ⟨t.2, by simp [hbody]⟩

end FileSet

end EarlyConfig

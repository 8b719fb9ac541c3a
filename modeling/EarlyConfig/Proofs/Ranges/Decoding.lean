import EarlyConfig.Dialect.Backend
import EarlyConfig.Dialect.ModuleOrigin
import EarlyConfig.Dialect.RequiredProvider
import EarlyConfig.Dialect.Variable
import EarlyConfig.Provider.Argument
import EarlyConfig.Proofs.Selection

/-! Where diagnostics point. A run is `Sound` for some places if all it complains about is at such
places. Runs put together from sound runs are sound, so each decoder that dialects share is taken
through its steps once: on syntax that lies within the text of its file, it complains about places
within that text. -/
namespace EarlyConfig

/-! ### Places in syntax -/

namespace Hcl

/-- The place lies in a text of this many bytes. -/
def Span.Within (n : Nat) (s : Span) : Prop :=
  s.start ≤ s.stop ∧ s.stop ≤ n

instance (n : Nat) (s : Span) : Decidable (s.Within n) :=
  inferInstanceAs (Decidable (_ ∧ _))

theorem Span.Within.join {n : Nat} {a b : Span} (ha : a.Within n) (hb : b.Within n) :
    (a.join b).Within n := by
  obtain ⟨ha, han⟩ := ha
  obtain ⟨hb, hbn⟩ := hb
  show min a.start b.start ≤ max a.stop b.stop ∧ max a.stop b.stop ≤ n
  omega

mutual

/-- The places of the items, keys and values of lists and objects, at every depth. What stands
inside other expressions has no place of its own. -/
def Expr.spans : Expr → List Span
  | .list items => itemSpans items
  | .object entries => entrySpans entries
  | _ => []
termination_by structural e => e

def itemSpans : List (Located Expr) → List Span
  | [] => []
  | ⟨e, span⟩ :: rest => span :: e.spans ++ itemSpans rest
termination_by structural items => items

def entrySpans : List (Located Expr × Located Expr) → List Span
  | [] => []
  | (⟨k, key⟩, ⟨e, value⟩) :: rest => key :: value :: (k.spans ++ e.spans) ++ entrySpans rest
termination_by structural entries => entries

end

def Attribute.spans (a : Attribute) : List Span :=
  a.key.span :: a.value.span :: a.value.value.spans

def Header.spans (h : Header) : List Span :=
  h.kind.span :: h.labels.map (·.span)

mutual

def Item.spans : Item → List Span
  | .attr a => a.spans
  | .block header body => header.spans ++ Body.spans body
termination_by structural item => item

/-- All places of a body. -/
def Body.spans : List Item → List Span
  | [] => []
  | item :: rest => item.spans ++ Body.spans rest
termination_by structural items => items

end

def Expr.Within (n : Nat) (e : Expr) : Prop :=
  ∀ s ∈ e.spans, s.Within n

def Attribute.Within (n : Nat) (a : Attribute) : Prop :=
  ∀ s ∈ a.spans, s.Within n

def Body.Within (n : Nat) (b : Body) : Prop :=
  ∀ s ∈ Body.spans b, s.Within n

structure Block.Within (n : Nat) (b : Block) : Prop where
  header : ∀ s ∈ b.header.spans, s.Within n
  body : Body.Within n b.body

instance (n : Nat) (b : Body) : Decidable (Body.Within n b) :=
  inferInstanceAs (Decidable (∀ s ∈ Body.spans b, s.Within n))

variable {n : Nat}

theorem Expr.Within.item {items : List (Located Expr)} (h : (Expr.list items).Within n)
    {item : Located Expr} (hitem : item ∈ items) :
    item.span.Within n ∧ item.value.Within n := by
  unfold Expr.Within at h
  rw [Expr.spans] at h
  induction items with
  | nil => cases hitem
  | cons first rest ih =>
    simp only [itemSpans, List.mem_append, List.mem_cons] at h
    rcases List.mem_cons.1 hitem with rfl | hrest
    · exact ⟨h _ (.inl (.inl rfl)), fun s hs => h s (.inl (.inr hs))⟩
    · exact ih (fun s hs => h s (.inr hs)) hrest

theorem Expr.Within.entry {entries : List (Located Expr × Located Expr)}
    (h : (Expr.object entries).Within n) {entry : Located Expr × Located Expr}
    (hentry : entry ∈ entries) :
    entry.1.span.Within n ∧ entry.2.span.Within n ∧ entry.2.value.Within n := by
  unfold Expr.Within at h
  rw [Expr.spans] at h
  induction entries with
  | nil => cases hentry
  | cons first rest ih =>
    simp only [entrySpans, List.mem_append, List.mem_cons] at h
    rcases List.mem_cons.1 hentry with rfl | hrest
    · exact ⟨h _ (.inl (.inl rfl)), h _ (.inl (.inr (.inl rfl))),
        fun s hs => h s (.inl (.inr (.inr (.inr hs))))⟩
    · exact ih (fun s hs => h s (.inr hs)) hrest

namespace Attribute.Within

variable {a : Attribute} (h : a.Within n)
include h

theorem key : a.key.span.Within n :=
  h _ (List.mem_cons_self ..)

theorem value : a.value.span.Within n :=
  h _ (List.mem_cons_of_mem _ (List.mem_cons_self ..))

theorem expr : a.value.value.Within n :=
  fun s hs => h s (List.mem_cons_of_mem _ (List.mem_cons_of_mem _ hs))

end Attribute.Within

namespace Block.Within

variable {b : Block} (h : b.Within n)
include h

theorem kind : b.header.kind.span.Within n :=
  h.header _ (List.mem_cons_self ..)

theorem label {l : Located String} (hl : l ∈ b.header.labels) : l.span.Within n :=
  h.header _ (List.mem_cons_of_mem _ (List.mem_map_of_mem hl))

theorem span : b.header.span.Within n := by
  unfold Header.span
  split
  · rename_i l hlast
    exact h.kind.join (h.label (List.mem_of_getLast? hlast))
  · exact h.kind

end Block.Within

namespace Body.Within

theorem item {b : Body} (h : Body.Within n b) {item : Item} (hitem : item ∈ b) :
    ∀ s ∈ item.spans, s.Within n := by
  induction b with
  | nil => cases hitem
  | cons first rest ih =>
    have hparts : ∀ s ∈ first.spans ++ Body.spans rest, s.Within n := h
    rw [List.forall_mem_append] at hparts
    rcases List.mem_cons.1 hitem with rfl | hrest
    · exact hparts.1
    · exact ih hparts.2 hrest

theorem of_items {b : Body} (h : ∀ item ∈ b, ∀ s ∈ item.spans, s.Within n) : Body.Within n b := by
  induction b with
  | nil => exact fun _ hs => nomatch hs
  | cons first rest ih =>
    rw [List.forall_mem_cons] at h
    exact List.forall_mem_append.2 ⟨h.1, ih h.2⟩

theorem filter {b : Body} (h : Body.Within n b) (p : Item → Bool) : Body.Within n (b.filter p) :=
  of_items fun _ hitem => h.item (List.mem_filter.1 hitem).1

theorem mem_attributes {b : Body} (h : Body.Within n b) {a : Attribute} (ha : a ∈ b.attributes) :
    a.Within n := by
  obtain ⟨item, hitem, hattr⟩ := List.mem_filterMap.1 ha
  cases item with
  | attr a' =>
    cases hattr
    exact h.item hitem
  | block header body => cases hattr

theorem attribute? {b : Body} (h : Body.Within n b) {name : String} {a : Attribute}
    (ha : b.attribute? name = some a) : a.Within n :=
  h.mem_attributes (List.mem_filter.1 (List.mem_of_getLast? ha)).1

theorem mem_blocks {b : Body} (h : Body.Within n b) {inner : Block} (hinner : inner ∈ b.blocks) :
    inner.Within n := by
  obtain ⟨item, hitem, hblock⟩ := List.mem_filterMap.1 hinner
  cases item with
  | attr a => cases hblock
  | block header body =>
    cases hblock
    have hspans := h.item hitem
    rw [Item.spans, List.forall_mem_append] at hspans
    exact ⟨hspans.1, hspans.2⟩

end Body.Within

end Hcl

/-! ### Runs that complain at places -/

/-- The diagnostic is about such a place, and shows such a place around it if it shows any. -/
structure Diagnostic.PointsAt (P : SourceRange → Prop) (d : Diagnostic) : Prop where
  subject : ∃ r, d.subject = some r ∧ P r
  context : ∀ r, d.context = some r → P r

theorem Diagnostic.pointsAt_error {P : SourceRange → Prop} (summary detail : String)
    {r : SourceRange} (h : P r) : (Diagnostic.error summary detail r).PointsAt P :=
  ⟨⟨r, rfl, h⟩, fun _ hr => nomatch hr⟩

namespace Diagnosed

/-- All that the run complains about is at such places, and its value is as it should be. -/
structure Sound (P : SourceRange → Prop) (Q : α → Prop) (x : Diagnosed α) : Prop where
  value : Q x.value
  diagnostics : ∀ d ∈ x.diagnostics, d.PointsAt P

/-- A run whose value may be anything. -/
abbrev Points (P : SourceRange → Prop) (x : Diagnosed α) : Prop :=
  x.Sound P fun _ => True

namespace Sound

variable {P : SourceRange → Prop}

theorem pure {Q : α → Prop} {a : α} (h : Q a) : Sound P Q (Pure.pure a) :=
  ⟨h, fun _ hd => nomatch hd⟩

theorem pure_some {Q : α → Prop} {a : α} (h : Q a) :
    Sound P (fun o => ∀ a, o = some a → Q a) (Pure.pure (some a)) :=
  .pure fun _ ha => Option.some.inj ha ▸ h

theorem report {d : Diagnostic} (h : d.PointsAt P) : Points P (report d) :=
  ⟨trivial, fun e he => by rwa [List.mem_singleton.1 he]⟩

theorem reject {Q : Option α → Prop} (hQ : Q none) {d : Diagnostic} (h : d.PointsAt P) :
    Sound P Q (reject d) :=
  ⟨hQ, fun e he => by rwa [List.mem_singleton.1 he]⟩

variable {α β : Type} {Q : α → Prop} {R : β → Prop}

theorem bind {x : Diagnosed α} (h : Sound P Q x) {k : α → Diagnosed β}
    (hk : ∀ a, Q a → Sound P R (k a)) : Sound P R (x >>= k) := by
  have hrest := hk x.value h.value
  exact ⟨hrest.value, List.forall_mem_append.2 ⟨h.diagnostics, hrest.diagnostics⟩⟩

/-- A run that goes on after it has complained about a place. -/
theorem complain {summary detail : String} {r : SourceRange} (h : P r) {k : Unit → Diagnosed β}
    (hk : Sound P R (k ())) : Sound P R (Diagnosed.report (.error summary detail r) >>= k) :=
  (Sound.report (Diagnostic.pointsAt_error summary detail h)).bind fun _ _ => hk

theorem mapM {k : α → Diagnosed β} {xs : List α} (h : ∀ a ∈ xs, Sound P R (k a)) :
    Sound P (fun bs => ∀ b ∈ bs, R b) (xs.mapM k) := by
  induction xs with
  | nil => exact .pure fun _ hb => nomatch hb
  | cons a rest ih =>
    rw [List.forall_mem_cons] at h
    rw [List.mapM_cons]
    exact h.1.bind fun b hb => (ih h.2).bind fun bs hbs => .pure (List.forall_mem_cons.2 ⟨hb, hbs⟩)

/-- What each step keeps, the run keeps. -/
theorem foldlM {σ : Type} {I : σ → Prop} {k : σ → α → Diagnosed σ} {xs : List α}
    (h : ∀ s, I s → ∀ a ∈ xs, Sound P I (k s a)) {s : σ} (hs : I s) :
    Sound P I (xs.foldlM k s) := by
  induction xs generalizing s with
  | nil => exact .pure hs
  | cons a rest ih =>
    rw [List.foldlM_cons]
    exact (h s hs a (List.mem_cons_self ..)).bind fun t ht =>
      ih (fun s hs a ha => h s hs a (List.mem_cons_of_mem _ ha)) ht

theorem forM {k : α → Diagnosed PUnit} {xs : List α} (h : ∀ a ∈ xs, Points P (k a)) :
    Points P (xs.forM k) := by
  induction xs with
  | nil => exact .pure trivial
  | cons a rest ih =>
    rw [List.forall_mem_cons] at h
    exact h.1.bind fun _ _ => ih h.2

end Sound

end Diagnosed

open Diagnosed (Sound Points)

/-- The places within the first bytes of a file are such places. -/
def Covers (P : SourceRange → Prop) (file : String) (n : Nat) : Prop :=
  ∀ s : Hcl.Span, s.Within n → P (.ofSpan file s)

section

variable {P : SourceRange → Prop} {file : String} {n : Nat} (hP : Covers P file n)
include hP

/-! ### Schemas -/

namespace Schema

open Hcl (Block Body Item)

theorem labelProblem_pointsAt {b : Block} (hb : b.Within n) {expected : BlockSchema}
    {d : Diagnostic} (h : labelProblem file expected b = some d) : d.PointsAt P := by
  have hcontext : ∀ r, some (b.range file) = some r → P r := by
    rintro r ⟨⟩
    exact hP _ hb.span
  unfold labelProblem at h
  dsimp only at h
  split at h
  · cases h
    exact ⟨⟨_, rfl, hP _ hb.kind⟩, hcontext⟩
  · rename_i extra rest _ hdrop
    cases h
    have hextra : extra ∈ b.header.labels := by
      refine List.mem_of_mem_drop (i := expected.labels.length) ?_
      rw [hdrop]
      exact List.mem_cons_self ..
    exact ⟨⟨_, rfl, hP _ (hb.label hextra)⟩, hcontext⟩
  · cases h

theorem problem_pointsAt (s : Schema) {item : Item} (hitem : ∀ s ∈ item.spans, s.Within n)
    {d : Diagnostic} (h : s.problem file item = some d) : d.PointsAt P := by
  cases item with
  | attr a =>
    have ha : a.Within n := hitem
    unfold problem at h
    dsimp only at h
    split at h
    · cases h
      exact Diagnostic.pointsAt_error _ _ (hP _ ha.key)
    · cases h
  | block header body =>
    rw [Item.spans, List.forall_mem_append] at hitem
    have hb : Block.Within n ⟨header, body⟩ := ⟨hitem.1, hitem.2⟩
    unfold problem at h
    dsimp only at h
    split at h
    · exact labelProblem_pointsAt hP hb h
    · split at h
      · cases h
        exact Diagnostic.pointsAt_error _ _ (hP _ hb.kind)
      · cases h

/-- A complaint about a body is at a place of it, or is about an attribute that is not there. -/
theorem mem_diagnostics_select (s : Schema) {body : Body} (hbody : Body.Within n body)
    {d : Diagnostic} (h : d ∈ (s.select file body).diagnostics) :
    d.PointsAt P ∨ ∃ name ∈ s.missing body, d = missingAttribute name := by
  rcases List.mem_append.1 h with h | h
  · obtain ⟨item, hitem, hd⟩ := List.mem_filterMap.1 h
    exact .inl (problem_pointsAt hP s (hbody.item hitem) hd)
  · obtain ⟨name, hname, rfl⟩ := List.mem_map.1 h
    exact .inr ⟨name, hname, rfl⟩

omit hP in
theorem missing_eq_nil {s : Schema} (hs : ∀ a ∈ s.attributes, a.required = false) (body : Body) :
    s.missing body = [] := by
  have hfilter : (s.attributes.filter fun a =>
      a.required && (body.attribute? a.name).isNone) = [] :=
    List.filter_eq_nil_iff.2 fun a ha => by simp [hs a ha]
  rw [missing, hfilter, List.map_nil]

theorem select_sound {s : Schema} (hs : ∀ a ∈ s.attributes, a.required = false) {body : Body}
    (hbody : Body.Within n body) : Sound P (Body.Within n) (s.select file body) := by
  refine ⟨hbody.filter _, fun d hd => ?_⟩
  rcases mem_diagnostics_select hP s hbody hd with hpoints | ⟨name, hname, -⟩
  · exact hpoints
  · rw [missing_eq_nil hs] at hname
    cases hname

end Schema

/-! ### Attributes -/

namespace Hcl

theorem Attribute.Within.range {a : Attribute} (ha : a.Within n) : P (a.range file) :=
  hP _ ha.value

theorem Block.Within.range {b : Block} (hb : b.Within n) : P (b.range file) :=
  hP _ hb.span

namespace Attribute

theorem decode_points (t : Ty) {a : Attribute} (ha : a.Within n) : Points P (a.decode file t) := by
  unfold decode
  split
  · exact .pure trivial
  · split
    · exact .pure trivial
    · split
      · exact .pure trivial
      · exact .reject trivial (Diagnostic.pointsAt_error _ _ (ha.range hP))

theorem string?_points {a : Attribute} (ha : a.Within n) : Points P (a.string? file) :=
  (decode_points hP .string ha).bind fun _ _ => .pure trivial

theorem bool?_points {a : Attribute} (ha : a.Within n) : Points P (a.bool? file) :=
  (decode_points hP .bool ha).bind fun _ _ => .pure trivial

end Attribute

namespace Body

variable {b : Body} (hb : Body.Within n b)
include hb

theorem string?_points (name : String) : Points P (b.string? file name) := by
  unfold string?
  split
  · exact .pure trivial
  · rename_i a ha
    exact Attribute.string?_points hP (hb.attribute? ha)

theorem placed?_sound (name : String) :
    Sound P (fun o => ∀ p, o = some p → P p.range) (b.placed? file name) := by
  unfold placed?
  split
  · exact .pure fun _ hp => nomatch hp
  · rename_i a ha
    have hrange := (hb.attribute? ha).range hP
    refine (Attribute.string?_points hP (hb.attribute? ha)).bind fun text _ => .pure fun p hp => ?_
    obtain ⟨_, _, rfl⟩ := Option.map_eq_some_iff.1 hp
    exact hrange

theorem string_points (name : String) : Points P (b.string file name) :=
  (string?_points hP hb name).bind fun _ _ => .pure trivial

theorem bool_points (name : String) : Points P (b.bool file name) := by
  unfold bool
  split
  · exact .pure trivial
  · rename_i a ha
    exact (Attribute.bool?_points hP (hb.attribute? ha)).bind fun _ _ => .pure trivial

end Body

/-- The label that names a block is one of its labels. -/
theorem Block.name?_points {b : Block} (hb : b.Within n) {k : Nat}
    (hk : k < b.header.labels.length) : Points P (b.name? file k) := by
  unfold Block.name?
  split
  · refine .reject trivial ⟨⟨.ofSpan file b.header.labels[k].span, ?_, ?_⟩, ?_⟩
    · simp [Block.labelRanges, hk]
    · exact hP _ (hb.label (List.getElem_mem hk))
    · rintro r ⟨⟩
      exact hb.range hP
  · exact .pure trivial

end Hcl

/-! ### Variables -/

namespace Variable

open Hcl (Attribute Body)

theorem decodeType_points {a : Attribute} (ha : a.Within n) : Points P (decodeType file a) := by
  have hrange := ha.range hP
  unfold decodeType
  split
  · split
    · rename_i hint _ _ _ _
      have hpoints : (quotedType hint (a.range file)).PointsAt P :=
        ⟨⟨_, rfl, hrange⟩, fun _ hr => by cases hr⟩
      exact (Sound.report hpoints).bind fun _ _ => .pure trivial
    · exact .complain hrange (.pure trivial)
  · split
    · exact .pure trivial
    · exact .complain hrange (.pure trivial)

theorem decodeTypeOf_points {b : Body} (hb : Body.Within n b) :
    Points P (decodeTypeOf file b) := by
  unfold decodeTypeOf
  split
  · exact .pure trivial
  · rename_i a ha
    exact decodeType_points hP (hb.attribute? ha)

theorem decodeDefault_points (t : Ty) (defaults : Option Defaults) {a : Attribute}
    (ha : a.Within n) : Points P (decodeDefault file t defaults a) := by
  unfold decodeDefault
  split
  · exact .pure trivial
  · split
    · exact .pure trivial
    · exact .complain (ha.range hP) (.pure trivial)

theorem decode_points {b : Body} (hb : Body.Within n b) : Points P (decode file b) := by
  unfold decode
  refine (Body.string_points hP hb "description").bind fun description _ => ?_
  refine (decodeTypeOf_points hP hb).bind fun type _ => ?_
  refine (Body.bool_points hP hb "sensitive").bind fun sensitive _ => ?_
  refine (Body.bool_points hP hb "ephemeral").bind fun ephemeral _ => ?_
  split
  · exact .pure trivial
  · rename_i a ha
    exact (decodeDefault_points hP _ _ (hb.attribute? ha)).bind fun _ _ => .pure trivial

end Variable

/-! ### Origins, provider arguments and backends -/

theorem ModuleOrigin.decodeVersion_points {a : Hcl.Attribute} (ha : a.Within n) :
    Points P (decodeVersion file a) := by
  unfold decodeVersion
  refine (Hcl.Attribute.string?_points hP ha).bind fun text _ => ?_
  split
  · exact .pure trivial
  · split
    · exact .pure trivial
    · exact .reject trivial (Diagnostic.pointsAt_error _ _ (ha.range hP))

theorem ModuleOrigin.decode_points {b : Hcl.Body} (hb : Hcl.Body.Within n b) :
    Points P (decode file b) := by
  unfold decode
  refine (Hcl.Body.string_points hP hb "source").bind fun source _ => ?_
  cases ha : b.attribute? "version" with
  | none => exact .pure trivial
  | some a => exact (decodeVersion_points hP (hb.attribute? ha)).bind fun _ _ => .pure trivial

theorem ProviderRef.argument_points {b : Hcl.Body} (hb : Hcl.Body.Within n b) :
    Points P (argument file b) := by
  unfold argument
  split
  · exact .pure trivial
  · rename_i a ha
    split
    · exact .pure trivial
    · exact .reject trivial (Diagnostic.pointsAt_error _ _ ((hb.attribute? ha).range hP))

theorem Backend.decode_points {b : Hcl.Block} (hb : b.Within n) : Points P (decode file b) := by
  unfold decode
  split
  · exact (Schema.select_sound hP (by decide) hb.body).bind fun _ _ => .pure trivial
  · exact .pure trivial

theorem Cloud.decode_points {b : Hcl.Block} (hb : b.Within n) : Points P (decode file b) := by
  unfold decode
  exact (Schema.select_sound hP (by decide) hb.body).bind fun _ _ => .pure trivial

/-! ### Required providers -/

namespace RequiredProvider

open Hcl (Attribute Block Expr Located)

/-- The places that an entry remembers for later complaints. -/
structure At (P : SourceRange → Prop) (p : RequiredProvider) : Prop where
  range : P p.range
  versions : ∀ v ∈ p.versions, P v.range

theorem decodeAlias_points (name : String) {e : Located Expr} (he : e.span.Within n) :
    Points P (decodeAlias file name e) := by
  unfold decodeAlias
  split
  · exact .reject trivial (Diagnostic.pointsAt_error _ _ (hP _ he))
  · split
    · exact .pure trivial
    · exact .reject trivial (Diagnostic.pointsAt_error _ _ (hP _ he))

theorem decodeAliases_points (name : String) {e : Located Expr} (he : e.span.Within n)
    (hvalue : e.value.Within n) : Points P (decodeAliases file name e) := by
  unfold decodeAliases
  split
  · rename_i items heq
    rw [heq] at hvalue
    have hitems : ∀ item ∈ items, Points P (decodeAlias file name item) := fun item hitem =>
      decodeAlias_points hP name (hvalue.item hitem).1
    exact (Sound.mapM hitems).bind fun _ _ => .pure trivial
  · exact .complain (hP _ he) (.pure trivial)

theorem addSetting_sound {p : RequiredProvider} (hp : p.At P) {key value : Located Expr}
    (hkey : key.span.Within n) (hspan : value.span.Within n) (hvalue : value.value.Within n) :
    Sound P (At P) (addSetting file p key value) := by
  unfold addSetting
  dsimp only
  split
  · split
    · refine .pure ⟨hp.range, fun v hv => ?_⟩
      rcases List.mem_append.1 hv with hv | hv
      · exact hp.versions v hv
      · rw [List.mem_singleton.1 hv]
        exact hP _ hspan
    · exact .complain (hP _ hspan) (.pure hp)
  · split
    · exact .pure ⟨hp.range, hp.versions⟩
    · exact .complain (hP _ hspan) (.pure hp)
  · refine (decodeAliases_points hP p.name hspan hvalue).bind fun aliases _ => ?_
    exact .pure ⟨hp.range, hp.versions⟩
  · exact .complain (hP _ hkey) (.pure hp)

theorem decodeEntry_sound {a : Attribute} (ha : a.Within n) :
    Sound P (fun o => ∀ p, o = some p → p.At P) (decodeEntry file a) := by
  have hrange := ha.range hP
  unfold decodeEntry
  dsimp only
  split
  · rename_i items heq
    have hvalue := ha.expr
    rw [heq] at hvalue
    have hentry : At P { name := a.name, range := a.range file } :=
      ⟨hrange, fun _ hv => nomatch hv⟩
    refine (Sound.foldlM (fun p hp entry hmem => ?_) hentry).bind fun p hp => .pure ?_
    · obtain ⟨hkey, hspan, hexpr⟩ := hvalue.entry hmem
      exact addSetting_sound hP hp hkey hspan hexpr
    · rintro _ ⟨⟩
      exact hp
  · split
    · refine .pure ?_
      rintro _ ⟨⟩
      refine ⟨hrange, fun v hv => ?_⟩
      rw [List.mem_singleton.1 hv]
      exact hrange
    · exact .reject (fun _ hp => nomatch hp) (Diagnostic.pointsAt_error _ _ hrange)

theorem decode_sound {b : Block} (hb : b.Within n) :
    Sound P (fun ps => ∀ p ∈ ps, At P p) (decode file b) := by
  unfold decode
  have hnested : ∀ inner ∈ b.body.blocks, Points P (.report (unexpectedBlock file inner)) := by
    intro inner hinner
    have hkind : inner.header.kind.span.Within n := (hb.body.mem_blocks hinner).kind
    exact .report (Diagnostic.pointsAt_error _ _ (hP _ hkind))
  have hentries : ∀ a ∈ b.body.attributes,
      Sound P (fun o => ∀ p, o = some p → p.At P) (decodeEntry file a) :=
    fun a ha => decodeEntry_sound hP (hb.body.mem_attributes ha)
  refine (Sound.forM hnested).bind fun _ _ => ?_
  refine (Sound.mapM hentries).bind fun ps hps => .pure fun p hp => ?_
  obtain ⟨o, ho, rfl⟩ := List.mem_filterMap.1 hp
  exact hps _ ho p rfl

end RequiredProvider

end

/-! ### Required providers, resolved -/

namespace RequiredProvider

variable {P : SourceRange → Prop}

theorem keepFirst_sound {known : Option (Placed String)}
    (hknown : ∀ s, known = some s → P s.range) {given : Placed String} (hgiven : P given.range)
    {complaint : Placed String → Diagnostic} (hcomplaint : ∀ k, (complaint k).PointsAt P) :
    Sound P (fun o => ∀ s, o = some s → P s.range) (keepFirst known given complaint) := by
  unfold keepFirst
  split
  · exact .pure hknown
  · split
    · exact .pure_some hgiven
    · split
      · exact .bind (.report (hcomplaint _)) fun _ _ => .pure hknown
      · exact .pure hknown

theorem mergeSource_sound {known : Option (Placed String)}
    (hknown : ∀ s, known = some s → P s.range) {p : RequiredProvider} (hp : p.At P) :
    Sound P (fun o => ∀ s, o = some s → P s.range) (mergeSource known p) :=
  keepFirst_sound hknown hp.range fun _ => Diagnostic.pointsAt_error _ _ hp.range

theorem address_points (name : String) {source : Option (Placed String)}
    (h : ∀ s, source = some s → P s.range) : Points P (address name source) := by
  unfold address
  split
  · exact .pure trivial
  · rename_i s
    split
    · exact .pure trivial
    · exact .reject trivial (Diagnostic.pointsAt_error _ _ (h s rfl))

theorem constraints_points {version : Placed String} (h : P version.range) :
    Points P (constraints version) := by
  unfold constraints
  split
  · exact .pure trivial
  · exact .complain h (.pure trivial)

end RequiredProvider

end EarlyConfig

import EarlyConfig.Proofs.LowerCase
import EarlyConfig.Proofs.Results
import EarlyConfig.Provider.Address

/-! Source strings of providers. A grammar says which texts are sources and which provider each of
them names (`Names`), without saying how a text is taken apart. Reading accepts just the texts of
the grammar (`ofSource_eq_ok`). A provider that has a source is named by both of its own texts as
well (`Spelled.names_text`, `Spelled.names_display`), and the case of a source does not matter
(`Names.lower`). -/
namespace EarlyConfig.Provider

/-! ### The grammar -/

/-- Letters, digits and dashes, with a dash at neither end, in so many bytes at most. -/
structure IsWord (limit : Nat) (s : String) : Prop where
  nonempty : s ≠ ""
  short : s.utf8ByteSize ≤ limit
  start : s.toList.head? ≠ some '-'
  stop : s.toList.getLast? ≠ some '-'
  chars : ∀ c ∈ s.toList, c.isAlphanum ∨ c = '-'

/-- A word that does not start with the mark, in whatever case. -/
structure IsType (s : String) : Prop extends IsWord 64 s where
  unmarked : ¬typeMark <+: (Text.lower s).toList

def IsNamespace (s : String) : Prop :=
  s = legacyNamespace ∨ IsWord 64 s

/-- Words with points between them. -/
def IsHostName (s : String) : Prop :=
  ∃ labels : List String, labels ≠ [] ∧ (∀ label ∈ labels, IsWord 63 label) ∧
    s = ".".intercalate labels

/-- The name of a host, and a number behind a colon or not. -/
inductive IsHost : String → Prop
  | bare {name : String} (h : IsHostName name) : IsHost name
  | numbered {name digits : String} (h : IsHostName name) (nonempty : digits ≠ "")
      (number : ∀ c ∈ digits.toList, c.isDigit) : IsHost (name ++ ":" ++ digits)

/-- The provider that a source names. What is left out is the default, and providers that are known
by name only live in the default registry. -/
inductive Names : String → Provider → Prop
  | type {t : String} (ht : IsType t) : Names t (.ofType (Text.lower t))
  | inNamespace {n t : String} (hn : IsNamespace n) (ht : IsType t) :
      Names ("/".intercalate [n, t]) ⟨registryHost, Text.lower n, Text.lower t⟩
  | onHost {h n t : String} (hh : IsHost h) (hn : IsNamespace n) (ht : IsType t)
      (hlegacy : n = legacyNamespace → Text.lower h = registryHost) :
      Names ("/".intercalate [h, n, t]) ⟨Text.lower h, Text.lower n, Text.lower t⟩

/-! ### Parts -/

theorem isWord_iff {limit : Nat} {s : String} :
    IsWord limit s ↔ s.toList ≠ [] ∧ s.utf8ByteSize ≤ limit ∧ hasOuterDash s.toList = false ∧
      s.toList.all isPartChar := by
  simp only [hasOuterDash, isPartChar, Bool.or_eq_false_iff, decide_eq_false_iff_not,
    List.all_eq_true, Bool.or_eq_true, decide_eq_true_eq, ne_eq, String.toList_eq_nil_iff]
  constructor
  · intro h
    exact ⟨h.nonempty, h.short, ⟨h.start, h.stop⟩, h.chars⟩
  · rintro ⟨hsome, hshort, ⟨hstart, hstop⟩, hchars⟩
    exact ⟨hsome, hshort, hstart, hstop, hchars⟩

theorem readPart_eq_ok {s t : String} : readPart s = .ok t ↔ IsWord 64 s ∧ Text.lower s = t := by
  rw [isWord_iff, readPart]
  by_cases hempty : s.toList = []
  · simp [hempty]
  by_cases hlong : 64 < s.utf8ByteSize
  · simp [hempty, hlong]
  cases hdash : hasOuterDash s.toList <;> cases hchars : s.toList.all isPartChar <;>
    simp [hempty, hlong, Nat.le_of_not_lt hlong]

theorem checkLabel_eq_ok {label : String} : checkLabel label = .ok () ↔ IsWord 63 label := by
  rw [isWord_iff, checkLabel]
  by_cases hempty : label.toList = []
  · simp [hempty]
  by_cases hlong : 63 < label.utf8ByteSize
  · simp [hempty, hlong]
  cases hdash : hasOuterDash label.toList <;> cases hchars : label.toList.all isPartChar <;>
    simp [hempty, hlong, Nat.le_of_not_lt hlong]

theorem readType_eq_ok {part source t : String} :
    readType part source = .ok t ↔ IsType part ∧ Text.lower part = t := by
  simp only [readType, Except.bind_eq_ok, Except.mapError_eq_ok, Except.check_eq_ok,
    Except.pure_eq_ok, readPart_eq_ok, List.isPrefixOf_iff_prefix]
  constructor
  · rintro ⟨t, ⟨hword, rfl⟩, hunmarked, rfl⟩
    exact ⟨⟨hword, hunmarked⟩, rfl⟩
  · rintro ⟨htype, rfl⟩
    exact ⟨_, ⟨htype.toIsWord, rfl⟩, htype.unmarked, rfl⟩

theorem readNamespace_eq_ok {part source t : String} :
    readNamespace part source = .ok t ↔ IsNamespace part ∧ Text.lower part = t := by
  rw [readNamespace, IsNamespace]
  by_cases hlegacy : part = legacyNamespace
  · have hlower : Text.lower legacyNamespace = legacyNamespace := by decide
    simp [hlegacy, hlower]
  · simp [hlegacy, Except.mapError_eq_ok, readPart_eq_ok]

theorem IsWord.not_mem {limit : Nat} {s : String} (h : IsWord limit s) {c : Char}
    (hc : c.isAlphanum = false) (hdash : c ≠ '-') : c ∉ s.toList := fun hmem =>
  (h.chars c hmem).elim (fun halpha => by simp [hc] at halpha) hdash

theorem IsType.slash {s : String} (h : IsType s) : '/' ∉ s.toList :=
  h.not_mem (by decide) (by decide)

theorem IsNamespace.slash {s : String} (h : IsNamespace s) : '/' ∉ s.toList := by
  rcases h with rfl | h
  · decide
  · exact h.not_mem (by decide) (by decide)

/-! ### Hosts -/

theorem isHostName_iff {s : String} :
    IsHostName s ↔ ∀ label ∈ Text.pieces '.' s, IsWord 63 label := by
  constructor
  · rintro ⟨labels, hsome, hwords, rfl⟩
    have hpieces : Text.pieces '.' (".".intercalate labels) = labels :=
      Text.pieces_intercalate hsome fun label hlabel =>
        (hwords label hlabel).not_mem (by decide) (by decide)
    rwa [hpieces]
  · intro h
    exact ⟨_, Text.pieces_ne_nil '.' s, h, (Text.intercalate_pieces '.' s).symm⟩

theorem IsHostName.nonempty {s : String} (h : IsHostName s) : s ≠ "" := by
  rintro rfl
  exact (isHostName_iff.1 h "" (by decide)).nonempty rfl

theorem IsHostName.not_mem {s : String} (h : IsHostName s) {c : Char} (hc : c.isAlphanum = false)
    (hdash : c ≠ '-') (hpoint : c ≠ '.') : c ∉ s.toList := by
  obtain ⟨labels, -, hwords, rfl⟩ := h
  intro hmem
  rcases Text.mem_of_mem_intercalate hmem with hmem | ⟨label, hlabel, hmem⟩
  · exact hpoint (by simpa using hmem)
  · exact (hwords label hlabel).not_mem hc hdash hmem

theorem isHost_of_not_mem {s : String} (h : ':' ∉ s.toList) : IsHost s ↔ IsHostName s := by
  refine ⟨fun hs => ?_, .bare⟩
  cases hs with
  | bare hname => exact hname
  | numbered hname hsome hnumber => exact absurd (by simp) h

/-- What follows the last colon is the number. -/
theorem isHost_numbered {name digits : String} (h : ':' ∉ digits.toList) :
    IsHost (name ++ ":" ++ digits) ↔
      IsHostName name ∧ digits ≠ "" ∧ ∀ c ∈ digits.toList, c.isDigit := by
  refine ⟨fun hs => ?_, fun ⟨hname, hsome, hnumber⟩ => .numbered hname hsome hnumber⟩
  generalize hs' : name ++ ":" ++ digits = s at hs
  cases hs with
  | bare hname =>
    have hmem : ':' ∈ s.toList := by simp [← hs']
    exact absurd hmem (hname.not_mem (by decide) (by decide) (by decide))
  | @numbered name' digits' hname hsome hnumber =>
    have hcolon : ':' ∉ digits'.toList := fun hmem => absurd (hnumber _ hmem) (by decide)
    have hlist : name.toList ++ ':' :: digits.toList = name'.toList ++ ':' :: digits'.toList := by
      rw [← Text.toList_join, ← Text.toList_join]
      exact congrArg String.toList hs'
    have hcut := Text.cutLast_append h name.toList
    rw [hlist, Text.cutLast_append hcolon] at hcut
    simp only [Prod.mk.injEq, Option.some.injEq, String.toList_inj] at hcut
    rw [← hcut.1, ← hcut.2]
    exact ⟨hname, hsome, hnumber⟩

theorem readHost_of_cut {s t : String} {host : List Char} {number : Option (List Char)}
    (hcut : Text.cutLast ':' s.toList = (host, number)) :
    readHost s = .ok t ↔
      (∀ digits, number = some digits → digits ≠ [] ∧ ∀ c ∈ digits, c.isDigit) ∧
        IsHostName (String.ofList host) ∧ Text.lower s = t := by
  have hnumber : ¬(number.any fun digits => digits.isEmpty || !digits.all Char.isDigit) ↔
      ∀ digits, number = some digits → digits ≠ [] ∧ ∀ c ∈ digits, c.isDigit := by
    cases number <;> simp
  simp only [readHost, hcut, Except.check_eq_ok, hnumber, Except.bind_eq_ok, Except.pure_eq_ok]
  refine and_congr_right fun _ => ?_
  rw [isHostName_iff]
  constructor
  · rintro ⟨-, ⟨⟩, hlabels, rfl⟩
    exact ⟨fun label hlabel => checkLabel_eq_ok.1 (Except.forM_eq_ok.1 hlabels label hlabel), rfl⟩
  · rintro ⟨hlabels, rfl⟩
    have hsome : host ≠ [] := by
      rintro rfl
      exact (isHostName_iff.2 hlabels).nonempty rfl
    exact ⟨by simpa using hsome, (), Except.forM_eq_ok.2 fun label hlabel =>
      checkLabel_eq_ok.2 (hlabels label hlabel), rfl⟩

theorem readHost_eq_ok {s t : String} : readHost s = .ok t ↔ IsHost s ∧ Text.lower s = t := by
  by_cases hcolon : ':' ∈ s.toList
  · obtain ⟨before, after, hs, hafter⟩ := Text.exists_last_of_mem hcolon
    have hjoin : s = String.ofList before ++ ":" ++ String.ofList after := by
      rw [← String.toList_inj, hs]
      simp
    have hhost : IsHost s ↔ IsHostName (String.ofList before) ∧ String.ofList after ≠ "" ∧
        ∀ c ∈ after, c.isDigit := by
      rw [hjoin, isHost_numbered (by simpa using hafter), String.toList_ofList]
    rw [readHost_of_cut (hs ▸ Text.cutLast_append hafter before), hhost]
    simp only [Option.some.injEq, forall_eq', ne_eq, String.ofList_eq_empty_iff]
    constructor
    · rintro ⟨⟨hsome, hnumber⟩, hname, rfl⟩
      exact ⟨⟨hname, hsome, hnumber⟩, rfl⟩
    · rintro ⟨⟨hname, hsome, hnumber⟩, rfl⟩
      exact ⟨⟨hsome, hnumber⟩, hname, rfl⟩
  · rw [readHost_of_cut (Text.cutLast_of_not_mem hcolon), isHost_of_not_mem hcolon]
    simp

theorem IsHost.slash {s : String} (h : IsHost s) : '/' ∉ s.toList := by
  cases h with
  | bare hname => exact hname.not_mem (by decide) (by decide) (by decide)
  | @numbered name digits hname _ hnumber =>
    have hname := hname.not_mem (c := '/') (by decide) (by decide) (by decide)
    have hdigits : '/' ∉ digits.toList := fun hmem => absurd (hnumber _ hmem) (by decide)
    simp [hname, hdigits]

/-! ### Sources -/

theorem checkLegacy_eq_ok {p q : Provider} :
    checkLegacy p = .ok q ↔
      (p.namespaceName = legacyNamespace → p.hostname = registryHost) ∧ p = q := by
  rw [checkLegacy]
  by_cases hns : p.namespaceName = legacyNamespace <;>
    by_cases hhost : p.hostname = registryHost <;> simp [hns, hhost]

theorem IsType.not_blank {s t : String} (h : IsType t) (hs : ∀ c ∈ t.toList, c ∈ s.toList) :
    ¬(Text.trim s).isEmpty := by
  rw [Text.trim_isEmpty]
  intro hblank
  obtain ⟨c, hc⟩ := List.exists_mem_of_ne_nil t.toList (by simpa using h.nonempty)
  exact Text.not_isBlank (h.chars c hc) (hblank c (hs c hc))

theorem Names.not_blank {s : String} {p : Provider} (h : Names s p) :
    ¬(Text.trim s).isEmpty := by
  cases h with
  | type ht => exact ht.not_blank fun c hc => hc
  | inNamespace _ ht => exact ht.not_blank fun c hc => by simp [hc]
  | onHost _ _ ht _ => exact ht.not_blank fun c hc => by simp [hc]

theorem lower_eq_legacyNamespace {n : String} :
    Text.lower n = legacyNamespace ↔ n = legacyNamespace :=
  Text.lower_eq_iff (by simp [legacyNamespace])

theorem names_of_ofSource {s : String} {p : Provider} (h : ofSource s = .ok p) : Names s p := by
  simp only [ofSource, Except.check_eq_ok] at h
  obtain ⟨-, h⟩ := h
  have hs : "/".intercalate (Text.pieces '/' s) = s := Text.intercalate_pieces '/' s
  split at h
  · rename_i t hpieces
    simp only [Except.bind_eq_ok, Except.pure_eq_ok, readType_eq_ok] at h
    obtain ⟨_, ⟨ht, rfl⟩, rfl⟩ := h
    obtain rfl : t = s := by rwa [hpieces] at hs
    exact .type ht
  · rename_i n t hpieces
    simp only [Except.bind_eq_ok, Except.pure_eq_ok, readType_eq_ok, readNamespace_eq_ok] at h
    obtain ⟨_, ⟨ht, rfl⟩, _, ⟨hn, rfl⟩, rfl⟩ := h
    rw [← hs, hpieces]
    exact .inNamespace hn ht
  · rename_i host n t hpieces
    simp only [Except.bind_eq_ok, readType_eq_ok, readNamespace_eq_ok, Except.mapError_eq_ok,
      readHost_eq_ok, checkLegacy_eq_ok] at h
    obtain ⟨_, ⟨ht, rfl⟩, _, ⟨hn, rfl⟩, _, ⟨hhost, rfl⟩, hlegacy, rfl⟩ := h
    rw [← hs, hpieces]
    exact .onHost hhost hn ht fun hdash => hlegacy (lower_eq_legacyNamespace.2 hdash)
  · cases h

theorem Names.ofSource_eq {s : String} {p : Provider} (h : Names s p) : ofSource s = .ok p := by
  simp only [ofSource, Except.check_eq_ok]
  refine ⟨h.not_blank, ?_⟩
  have hpieces : ∀ ps : List String, ps ≠ [] → (∀ p ∈ ps, '/' ∉ p.toList) →
      Text.pieces '/' ("/".intercalate ps) = ps := fun ps => Text.pieces_intercalate
  cases h with
  | type ht =>
    simp only [Text.pieces_of_not_mem ht.slash, Except.bind_eq_ok, Except.pure_eq_ok,
      readType_eq_ok]
    exact ⟨_, ⟨ht, rfl⟩, rfl⟩
  | @inNamespace n t hn ht =>
    have hbare : ∀ p ∈ [n, t], '/' ∉ p.toList := by simp [hn.slash, ht.slash]
    simp only [hpieces _ (by simp) hbare, Except.bind_eq_ok, Except.pure_eq_ok,
      readType_eq_ok, readNamespace_eq_ok]
    exact ⟨_, ⟨ht, rfl⟩, _, ⟨hn, rfl⟩, rfl⟩
  | @onHost host n t hhost hn ht hlegacy =>
    have hbare : ∀ p ∈ [host, n, t], '/' ∉ p.toList := by simp [hhost.slash, hn.slash, ht.slash]
    simp only [hpieces _ (by simp) hbare, Except.bind_eq_ok, readType_eq_ok,
      readNamespace_eq_ok, Except.mapError_eq_ok, readHost_eq_ok, checkLegacy_eq_ok]
    exact ⟨_, ⟨ht, rfl⟩, _, ⟨hn, rfl⟩, _, ⟨hhost, rfl⟩,
      fun hdash => hlegacy (lower_eq_legacyNamespace.1 hdash), rfl⟩

theorem ofSource_eq_ok {s : String} {p : Provider} : ofSource s = .ok p ↔ Names s p :=
  ⟨names_of_ofSource, Names.ofSource_eq⟩

/-! ### Lower case -/

theorem IsWord.lower {limit : Nat} {s : String} (h : IsWord limit s) :
    IsWord limit (Text.lower s) where
  nonempty := mt Text.lower_eq_empty.1 h.nonempty
  short := by
    rw [Text.utf8ByteSize_lower]
    exact h.short
  start := by
    rw [Text.toList_lower, List.head?_map, ne_eq, Option.map_eq_some_iff]
    rintro ⟨c, hc, hdash⟩
    exact h.start (by rw [hc, (Text.toLower_eq_iff (by decide)).1 hdash])
  stop := by
    rw [Text.toList_lower, List.getLast?_map, ne_eq, Option.map_eq_some_iff]
    rintro ⟨c, hc, hdash⟩
    exact h.stop (by rw [hc, (Text.toLower_eq_iff (by decide)).1 hdash])
  chars := by
    simp only [Text.toList_lower, List.forall_mem_map, Text.isAlphanum_toLower]
    exact fun c hc => (h.chars c hc).imp_right (Text.toLower_eq_iff (by decide)).2

theorem IsType.lower {s : String} (h : IsType s) : IsType (Text.lower s) :=
  ⟨h.toIsWord.lower, by rw [Text.lower_lower]; exact h.unmarked⟩

theorem IsNamespace.lower {s : String} (h : IsNamespace s) : IsNamespace (Text.lower s) :=
  h.imp lower_eq_legacyNamespace.2 IsWord.lower

theorem IsHostName.lower {s : String} (h : IsHostName s) : IsHostName (Text.lower s) := by
  obtain ⟨labels, hsome, hwords, rfl⟩ := h
  have hjoined : Text.lower (".".intercalate labels) = _ :=
    Text.lower_intercalate (by decide) labels
  refine ⟨labels.map Text.lower, by simpa using hsome, ?_, hjoined⟩
  rw [List.forall_mem_map]
  exact fun label hlabel => (hwords label hlabel).lower

theorem IsHost.lower {s : String} (h : IsHost s) : IsHost (Text.lower s) := by
  cases h with
  | bare hname => exact .bare hname.lower
  | @numbered name digits hname hsome hnumber =>
    have hcolon : Text.lower ":" = ":" := by decide
    rw [Text.lower_append, Text.lower_append, hcolon]
    refine .numbered hname.lower (mt Text.lower_eq_empty.1 hsome) ?_
    simp only [Text.toList_lower, List.forall_mem_map, Text.isDigit_toLower]
    exact hnumber

theorem Names.lower {s : String} {p : Provider} (h : Names s p) : Names (Text.lower s) p := by
  have hslash : Text.lower "/" = "/" := by decide
  cases h with
  | type ht =>
    have h := Names.type ht.lower
    rwa [Text.lower_lower] at h
  | inNamespace hn ht =>
    have h := Names.inNamespace hn.lower ht.lower
    rw [Text.lower_lower, Text.lower_lower] at h
    rwa [Text.lower_intercalate hslash]
  | onHost hhost hn ht hlegacy =>
    have h := Names.onHost hhost.lower hn.lower ht.lower fun hdash => by
      rw [Text.lower_lower]
      exact hlegacy (lower_eq_legacyNamespace.1 hdash)
    rw [Text.lower_lower, Text.lower_lower, Text.lower_lower] at h
    rwa [Text.lower_intercalate hslash]

/-! ### Addresses as texts -/

/-- Each part of the address has the form it has in a source, and is in lower case. -/
structure Spelled (p : Provider) : Prop where
  host : IsHost p.hostname
  inNamespace : IsNamespace p.namespaceName
  type : IsType p.typeName
  lowerHost : Text.lower p.hostname = p.hostname
  lowerNamespace : Text.lower p.namespaceName = p.namespaceName
  lowerType : Text.lower p.typeName = p.typeName
  legacy : p.namespaceName = legacyNamespace → p.hostname = registryHost

theorem isHost_registryHost : IsHost registryHost := by
  refine .bare (isHostName_iff.2 ?_)
  have hpieces : Text.pieces '.' registryHost = ["registry", "terraform", "io"] := by decide
  rw [hpieces]
  simp only [List.forall_mem_cons, isWord_iff]
  decide

theorem isNamespace_defaultNamespace : IsNamespace defaultNamespace :=
  .inr (isWord_iff.2 (by decide))

theorem Names.spelled {s : String} {p : Provider} (h : Names s p) : p.Spelled := by
  have hhost : Text.lower registryHost = registryHost := by decide
  have hnamespace : Text.lower defaultNamespace = defaultNamespace := by decide
  cases h with
  | type ht =>
    exact ⟨isHost_registryHost, isNamespace_defaultNamespace, ht.lower, hhost, hnamespace,
      Text.lower_lower _, fun _ => rfl⟩
  | inNamespace hn ht =>
    exact ⟨isHost_registryHost, hn.lower, ht.lower, hhost, Text.lower_lower _, Text.lower_lower _,
      fun _ => rfl⟩
  | onHost hh hn ht hlegacy =>
    exact ⟨hh.lower, hn.lower, ht.lower, Text.lower_lower _, Text.lower_lower _,
      Text.lower_lower _, fun hdash => hlegacy (lower_eq_legacyNamespace.1 hdash)⟩

theorem Spelled.names_text {p : Provider} (h : p.Spelled) : Names p.text p := by
  have hnames := Names.onHost h.host h.inNamespace h.type fun hdash => by
    rw [h.lowerHost]
    exact h.legacy hdash
  rwa [h.lowerHost, h.lowerNamespace, h.lowerType] at hnames

theorem Spelled.names_display {p : Provider} (h : p.Spelled) : Names p.display p := by
  rw [display]
  split
  · rename_i hhost
    have hnames := Names.inNamespace h.inNamespace h.type
    rwa [h.lowerNamespace, h.lowerType, ← hhost] at hnames
  · exact h.names_text

/-- **Sources are a faithful text format.** A text is read as a provider just if the grammar says
that it names the provider. The provider is then read back from its own text and from the short one
without the default registry, and it is also what the source says in lower case. -/
theorem source_faithful :
    (∀ s p, ofSource s = .ok p ↔ Names s p) ∧
    ∀ s p, ofSource s = .ok p →
      ofSource p.text = .ok p ∧ ofSource p.display = .ok p ∧ ofSource (Text.lower s) = .ok p := by
  refine ⟨fun s p => ofSource_eq_ok, fun s p h => ?_⟩
  have hnames := ofSource_eq_ok.1 h
  simp only [ofSource_eq_ok]
  exact ⟨hnames.spelled.names_text, hnames.spelled.names_display, hnames.lower⟩

/-- A provider that is known by name only, with the registry spelled out in mixed case. -/
theorem source_faithful_legacy :
    ofSource "Registry.Terraform.IO/-/Google" = .ok (.legacy "google") ∧
      ofSource "registry.terraform.io/-/google" = .ok (.legacy "google") ∧
      ofSource "-/google" = .ok (.legacy "google") := by
  have h : ofSource "Registry.Terraform.IO/-/Google" = .ok (.legacy "google") := by
    with_unfolding_all rfl
  obtain ⟨htext, hdisplay, -⟩ := source_faithful.2 _ _ h
  exact ⟨h, htext, hdisplay⟩

end EarlyConfig.Provider

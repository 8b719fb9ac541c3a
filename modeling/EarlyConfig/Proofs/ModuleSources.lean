import EarlyConfig.ModuleSource
import EarlyConfig.Proofs.LowerCase

/-! Module sources and their texts. An address in a registry that was read has parts which hold none
of the marks that its texts put between them (`readable_of_ofText?`). So each mark of a printed
address is where the address is taken apart again (`Readable.ofText?_withSubdir`), and both texts of
a source are read as the source itself (`ofText_text`, `ofText_display`). -/
namespace EarlyConfig

namespace RegistryModule

/-! ### Names and hosts -/

theorem not_mem_of_isName {s : String} (h : isName s) {c : Char}
    (hc : (c.isAlphanum || c = '-' || c = '_') = false) : c ∉ s.toList := by
  simp only [isName, Bool.and_eq_true] at h
  intro hmem
  have hchar := List.all_eq_true.1 h.2 c hmem
  rw [hc] at hchar
  cases hchar

theorem not_mem_of_isTargetSystem {s : String} (h : isTargetSystem s) {c : Char}
    (hc : (c.isLower || c.isDigit) = false) : c ∉ s.toList := by
  simp only [isTargetSystem, Bool.and_eq_true] at h
  intro hmem
  have hchar := List.all_eq_true.1 h.2 c hmem
  rw [hc] at hchar
  cases hchar

theorem head?_of_isName {s : String} (h : isName s) {c : Char} (hc : c.isAlphanum = false) :
    s.toList.head? ≠ some c := by
  simp only [isName, Bool.and_eq_true] at h
  intro hhead
  have hstart := h.1.1.2
  rw [hhead, Option.any_some, hc] at hstart
  cases hstart

theorem head?_of_isHost {s : String} (h : isHost s) : s.toList.head? ≠ some '.' := by
  intro hhead
  obtain ⟨rest, hs⟩ := List.head?_eq_some_iff.1 hhead
  have hname : ∃ tail, (Text.cut ':' ('.' :: rest)).1 = '.' :: tail := by
    rw [Text.cut]
    split
    · exact ⟨rest, rfl⟩
    · exact ⟨rest.takeWhile (· ≠ ':'), by simp⟩
  obtain ⟨tail, htail⟩ := hname
  -- The first label of such a name is empty.
  have hlabels : ('.' :: tail).splitOn '.' = [] :: tail.splitOn '.' := by
    rw [List.splitOn_cons_eq_if_modifyHead]
    simp
  simp [isHost, hs, htail, hlabels] at h

/-! ### Parts of an address -/

/-- What stands between the slashes of an address. -/
structure IsPart (s : String) : Prop where
  nonempty : s ≠ ""
  slash : '/' ∉ s.toList

theorem IsPart.of_isName {s : String} (h : isName s) : IsPart s where
  nonempty := by
    rintro rfl
    exact absurd h (by decide)
  slash := not_mem_of_isName h (by decide)

theorem IsPart.of_isTargetSystem {s : String} (h : isTargetSystem s) : IsPart s where
  nonempty := by
    rintro rfl
    exact absurd h (by decide)
  slash := not_mem_of_isTargetSystem h (by decide)

theorem head?_join {p : String} (h : IsPart p) (rest : List String) (cs : List Char) :
    (("/".intercalate (p :: rest)).toList ++ cs).head? = p.toList.head? := by
  have hsome : p.toList ≠ [] := by simpa using h.nonempty
  obtain ⟨c, tail, hp⟩ := List.exists_cons_of_ne_nil hsome
  cases rest with
  | nil => simp [hp]
  | cons q rest => simp [String.intercalate_cons_cons, hp]

/-- Two slashes in a row do not stand in the parts of an address, nor at their end. -/
theorem not_infix_join {ps : List String} (hne : ps ≠ []) (hps : ∀ p ∈ ps, IsPart p) :
    ¬['/', '/'] <:+: ("/".intercalate ps).toList ++ ['/'] := by
  induction ps with
  | nil => exact absurd rfl hne
  | cons p rest ih =>
    obtain ⟨hp, hrest⟩ := List.forall_mem_cons.1 hps
    cases rest with
    | nil =>
      rw [String.intercalate_singleton]
      exact Text.not_infix_concat hp.slash
    | cons q rest =>
      have hq : IsPart q := hrest q (by simp)
      have hsplit : ("/".intercalate (p :: q :: rest)).toList ++ ['/'] =
          (p.toList ++ ['/']) ++ (("/".intercalate (q :: rest)).toList ++ ['/']) := by
        simp [String.intercalate_cons_cons]
      rw [hsplit]
      refine Text.not_infix_append (Text.not_infix_concat hp.slash) (ih (by simp) hrest) ?_
      rw [head?_join hq]
      rintro c hc hstart
      obtain rfl : c = '/' := by simpa using hc
      exact hq.slash (List.mem_of_head? hstart)

/-! ### Marks of other sources -/

/-- Neither a scheme nor a forced way of fetching stands in the text. -/
structure Plain (cs : List Char) : Prop where
  forced : ¬[':', ':'] <:+: cs
  scheme : ¬[':', '/', '/'] <:+: cs

theorem Plain.part {cs part : List Char} (h : Plain cs) (hpart : part <:+: cs) : Plain part :=
  ⟨fun hmark => h.forced (hmark.trans hpart), fun hmark => h.scheme (hmark.trans hpart)⟩

theorem Plain.append {xs ys : List Char} (hxs : ':' ∉ xs) (hys : Plain ys) : Plain (xs ++ ys) where
  forced := by
    rw [Text.infix_append_of_not_mem hxs]
    exact hys.forced
  scheme := by
    rw [Text.infix_append_of_not_mem hxs]
    exact hys.scheme

/-- A host and the slash behind it may stand before a text that does not go on with a mark. -/
theorem Plain.after_host {host rest : List Char} (hslash : '/' ∉ host)
    (hhost : ¬[':', ':'] <:+: host) (hrest : Plain rest) (hcolon : rest.head? ≠ some ':')
    (hstart : rest.head? ≠ some '/') : Plain (host ++ ['/'] ++ rest) where
  forced := by
    have hcolons : ¬[':', ':'] <:+: host ++ ['/'] :=
      Text.not_infix_append hhost (by decide) (by simp)
    exact Text.not_infix_append hcolons hrest.forced (by simp [hcolon])
  scheme := by
    have hslashes : ¬[':', '/', '/'] <:+: host ++ ['/'] := fun h =>
      Text.not_infix_concat hslash ((List.suffix_cons ':' ['/', '/']).isInfix.trans h)
    exact Text.not_infix_append hslashes hrest.scheme (by simp [hcolon, hstart])

theorem ofText?_eq_some {s : String} {m : RegistryModule} :
    ofText? s = some m ↔
      Plain s.toList ∧ (splitSubdir s).2 = m.subdir ∧
        packageParts? (splitSubdir s).1 =
          some (m.hostname, m.namespaceName, m.name, m.targetSystem) ∧
        isName m.namespaceName ∧ isName m.name ∧ isTargetSystem m.targetSystem := by
  have hplain : Plain s.toList ↔ ¬((Text.containsMark [':', ':'] s.toList ||
      Text.containsMark [':', '/', '/'] s.toList) = true) := by
    rw [Bool.or_eq_true, not_or, Text.containsMark_iff (by simp), Text.containsMark_iff (by simp)]
    exact ⟨fun h => ⟨h.forced, h.scheme⟩, fun h => ⟨h.1, h.2⟩⟩
  simp only [ofText?, hplain]
  constructor
  · intro h
    split at h
    · cases h
    · rename_i hmarks
      obtain ⟨⟨host, n, name, t⟩, hparts, h⟩ := Option.bind_eq_some_iff.1 h
      split at h
      · rename_i hnames
        cases h
        simp only [Bool.and_eq_true] at hnames
        exact ⟨hmarks, rfl, hparts, hnames.1.1, hnames.1.2, hnames.2⟩
      · cases h
  · rintro ⟨hmarks, hsubdir, hparts, hn, hname, ht⟩
    simp [hmarks, hsubdir, hparts, hn, hname, ht]

/-! ### Packages and directories -/

/-- A host of a registry, as it stands in an address that was read. -/
structure IsRegistry (host : String) : Prop where
  lower : Text.lower host = host
  known : host ∉ otherHosts
  name : isHost host
  slash : '/' ∉ host.toList

theorem IsRegistry.isPart {host : String} (h : IsRegistry host) : IsPart host where
  nonempty := by
    rintro rfl
    exact absurd h.name (by decide)
  slash := h.slash

theorem isRegistry_registryHost : IsRegistry Provider.registryHost :=
  ⟨by decide, by decide, by decide, by decide⟩

theorem packageParts?_names {n name t : String} (h : ∀ p ∈ [n, name, t], '/' ∉ p.toList) :
    packageParts? ("/".intercalate [n, name, t]) = some (Provider.registryHost, n, name, t) := by
  have hpieces : Text.pieces '/' ("/".intercalate [n, name, t]) = [n, name, t] :=
    Text.pieces_intercalate (by simp) h
  rw [packageParts?, hpieces]

theorem packageParts?_onHost {host n name t : String} (hhost : IsRegistry host)
    (h : ∀ p ∈ [n, name, t], '/' ∉ p.toList) :
    packageParts? ("/".intercalate [host, n, name, t]) = some (host, n, name, t) := by
  have hpieces : Text.pieces '/' ("/".intercalate [host, n, name, t]) = [host, n, name, t] :=
    Text.pieces_intercalate (by simp) (List.forall_mem_cons.2 ⟨hhost.slash, h⟩)
  have hknown : otherHosts.contains host = false := by simpa using hhost.known
  simp only [packageParts?, hpieces, hhost.lower, hhost.name, hknown]
  rfl

/-- The host of a package is the default one, or the lower case of what the package starts with. -/
theorem host_of_packageParts? {package host n name t : String}
    (h : packageParts? package = some (host, n, name, t)) :
    IsRegistry host ∧ (host = Provider.registryHost ∨
      ∃ written, Text.lower written = host ∧ written.toList <+: package.toList) := by
  rw [packageParts?] at h
  split at h
  · cases h
    exact ⟨isRegistry_registryHost, .inl rfl⟩
  · rename_i written _ _ _ hpieces
    have hslash : '/' ∉ written.toList :=
      Text.not_mem_of_mem_pieces (s := package) (by rw [hpieces]; exact List.mem_cons_self)
    have hpackage := Text.intercalate_pieces '/' package
    rw [hpieces, String.intercalate_cons_cons] at hpackage
    dsimp only at h
    split at h
    · cases h
    · rename_i hhost
      cases h
      simp only [Bool.or_eq_true, not_or, List.contains_iff_mem, Bool.not_eq_true',
        Bool.not_eq_false] at hhost
      refine ⟨⟨Text.lower_lower _, hhost.1, hhost.2, ?_⟩, .inr ⟨written, rfl, ?_⟩⟩
      · rwa [Text.mem_lower (by decide)]
      · rw [← hpackage, String.toList_append, String.toList_append, List.append_assoc]
        exact List.prefix_append ..
  · cases h

theorem infix_splitSubdir (s : String) :
    (splitSubdir s).1.toList <:+: s.toList ∧ (splitSubdir s).2.toList <:+: s.toList := by
  rw [splitSubdir]
  split
  · rename_i package subdir hcut
    rw [Text.eq_of_cutAt hcut, String.toList_ofList, String.toList_ofList]
    refine ⟨?_, (Text.infix_stripBoth _ _).trans (List.suffix_append ..).isInfix⟩
    rw [List.append_assoc]
    exact (List.prefix_append ..).isInfix
  · simp

theorem stripBoth_splitSubdir (s : String) :
    Text.stripBoth (· = '/') (splitSubdir s).2.toList = (splitSubdir s).2.toList := by
  rw [splitSubdir]
  split
  · rw [String.toList_ofList, Text.stripBoth_stripBoth]
  · rfl

theorem toList_withSubdir (m : RegistryModule) (package : String) :
    (m.withSubdir package).toList =
      package.toList ++ if m.subdir.isEmpty then [] else ['/', '/'] ++ m.subdir.toList := by
  rw [withSubdir]
  split <;> simp

theorem splitSubdir_withSubdir {m : RegistryModule} {package : String}
    (hslashes : ¬['/', '/'] <:+: package.toList ++ ['/'])
    (hsubdir : Text.stripBoth (· = '/') m.subdir.toList = m.subdir.toList) :
    splitSubdir (m.withSubdir package) = (package, m.subdir) := by
  rw [splitSubdir, toList_withSubdir]
  by_cases hempty : m.subdir = ""
  · have hcut : Text.cutAt ['/', '/'] package.toList = none :=
      (Text.cutAt_eq_none (by simp)).2 fun h => hslashes (h.trans (List.prefix_append ..).isInfix)
    simp [withSubdir, hempty, hcut]
  · have hcut : Text.cutAt ['/', '/'] (package.toList ++ (['/', '/'] ++ m.subdir.toList)) =
        some (package.toList, m.subdir.toList) := by
      rw [← List.append_assoc]
      exact Text.cutAt_append (by simp) hslashes m.subdir.toList
    simp only [String.isEmpty_iff, hempty, if_false, hcut, hsubdir, String.ofList_toList]

/-! ### Addresses that were read -/

/-- The parts of the address have the form they have in one that was read. -/
structure Readable (m : RegistryModule) : Prop where
  host : IsRegistry m.hostname
  colons : ¬[':', ':'] <:+: m.hostname.toList
  inNamespace : isName m.namespaceName
  name : isName m.name
  system : isTargetSystem m.targetSystem
  stripped : Text.stripBoth (· = '/') m.subdir.toList = m.subdir.toList
  plain : Plain m.subdir.toList

theorem readable_of_ofText? {s : String} {m : RegistryModule} (h : ofText? s = some m) :
    m.Readable := by
  obtain ⟨hplain, hsubdir, hparts, hn, hname, ht⟩ := ofText?_eq_some.1 h
  obtain ⟨hpackage, hinside⟩ := infix_splitSubdir s
  obtain ⟨hhost, hwritten⟩ := host_of_packageParts? hparts
  refine ⟨hhost, ?_, hn, hname, ht, hsubdir ▸ stripBoth_splitSubdir s,
    hplain.part (hsubdir ▸ hinside)⟩
  rcases hwritten with hdefault | ⟨written, hlower, hstart⟩
  · rw [hdefault]
    decide
  · rw [← hlower, Text.infix_lower (by simp)]
    exact fun hcolons => hplain.forced (hcolons.trans (hstart.isInfix.trans hpackage))

namespace Readable

variable {m : RegistryModule}

theorem isPart_names (h : m.Readable) :
    ∀ p ∈ [m.namespaceName, m.name, m.targetSystem], IsPart p := by
  simp only [List.forall_mem_cons]
  exact ⟨.of_isName h.inNamespace, .of_isName h.name, .of_isTargetSystem h.system, by simp⟩

/-- Both texts end like this. -/
theorem plain_names (h : m.Readable) :
    Plain (m.withSubdir ("/".intercalate [m.namespaceName, m.name, m.targetSystem])).toList := by
  have hcolon : ':' ∉ ("/".intercalate [m.namespaceName, m.name, m.targetSystem]).toList := by
    intro hmem
    rcases Text.mem_of_mem_intercalate hmem with hmem | ⟨p, hp, hmem⟩
    · exact absurd hmem (by decide)
    · simp only [List.mem_cons, List.not_mem_nil, or_false] at hp
      rcases hp with rfl | rfl | rfl
      · exact not_mem_of_isName h.inNamespace (by decide) hmem
      · exact not_mem_of_isName h.name (by decide) hmem
      · exact not_mem_of_isTargetSystem h.system (by decide) hmem
  rw [toList_withSubdir]
  refine .append hcolon ?_
  split
  · exact ⟨by decide, by decide⟩
  · exact .append (by decide) h.plain

theorem head?_names (h : m.Readable) {c : Char} (hc : c.isAlphanum = false) :
    (m.withSubdir
      ("/".intercalate [m.namespaceName, m.name, m.targetSystem])).toList.head? ≠ some c := by
  rw [toList_withSubdir, head?_join (.of_isName h.inNamespace)]
  exact head?_of_isName h.inNamespace hc

theorem plain_package (h : m.Readable) : Plain (m.withSubdir m.package).toList := by
  have hsplit : (m.withSubdir m.package).toList = m.hostname.toList ++ ['/'] ++
      (m.withSubdir ("/".intercalate [m.namespaceName, m.name, m.targetSystem])).toList := by
    simp [toList_withSubdir, package, String.intercalate_cons_cons]
  rw [hsplit]
  exact .after_host h.host.slash h.colons h.plain_names (h.head?_names (by decide))
    (h.head?_names (by decide))

/-- An address is read from its parts with the directory behind them. -/
theorem ofText?_withSubdir (h : m.Readable) {ps : List String} (hne : ps ≠ [])
    (hps : ∀ p ∈ ps, IsPart p) (hplain : Plain (m.withSubdir ("/".intercalate ps)).toList)
    (hparts : packageParts? ("/".intercalate ps) =
      some (m.hostname, m.namespaceName, m.name, m.targetSystem)) :
    ofText? (m.withSubdir ("/".intercalate ps)) = some m := by
  rw [ofText?_eq_some, splitSubdir_withSubdir (not_infix_join hne hps) h.stripped]
  exact ⟨hplain, rfl, hparts, h.inNamespace, h.name, h.system⟩

theorem ofText?_text (h : m.Readable) : ofText? m.text = some m :=
  h.ofText?_withSubdir (by simp) (List.forall_mem_cons.2 ⟨h.host.isPart, h.isPart_names⟩)
    h.plain_package (packageParts?_onHost h.host fun p hp => (h.isPart_names p hp).slash)

theorem ofText?_display (h : m.Readable) : ofText? m.display = some m := by
  rw [display]
  split
  · rename_i hhost
    have hparts := packageParts?_names fun p hp => (h.isPart_names p hp).slash
    rw [← hhost] at hparts
    exact h.ofText?_withSubdir (by simp) h.isPart_names h.plain_names hparts
  · exact h.ofText?_text

theorem head?_text (h : m.Readable) : m.text.toList.head? ≠ some '.' := by
  rw [text, toList_withSubdir, package, head?_join h.host.isPart]
  exact head?_of_isHost h.host.name

theorem head?_display (h : m.Readable) : m.display.toList.head? ≠ some '.' := by
  rw [display]
  split
  · exact h.head?_names (by decide)
  · exact h.head?_text

end Readable

end RegistryModule

namespace ModuleSource

/-- A path of the module that names it starts with a point. -/
theorem ofText_of_head? {s : String} (h : s.toList.head? ≠ some '.') :
    ofText s =
      match RegistryModule.ofText? s with
      | some m => .registry m
      | none => .remote s := by
  have hmarks : ∀ mark ∈ localMarks, mark.toList.head? = some '.' := by decide
  have hany : (localMarks.any fun mark => mark.toList.isPrefixOf s.toList) = false := by
    rw [List.any_eq_false]
    intro mark hmark hstart
    obtain ⟨rest, hrest⟩ := List.isPrefixOf_iff_prefix.1 hstart
    obtain ⟨tail, htail⟩ := List.head?_eq_some_iff.1 (hmarks mark hmark)
    exact h (by simp [← hrest, htail])
  rw [ofText, hany]
  rfl

theorem ofText_cases (s : String) :
    ofText s = .localPath s ∨ ofText s = .remote s ∨
      ∃ m, RegistryModule.ofText? s = some m ∧ ofText s = .registry m := by
  rw [ofText]
  split
  · exact .inl rfl
  · split
    · rename_i m hm
      exact .inr (.inr ⟨m, hm, rfl⟩)
    · exact .inr (.inl rfl)

theorem ofText_text (s : String) : ofText (ofText s).text = ofText s := by
  rcases ofText_cases s with h | h | ⟨m, hm, h⟩
  · rw [h, text, h]
  · rw [h, text, h]
  · have hm := RegistryModule.readable_of_ofText? hm
    rw [h, text, ofText_of_head? hm.head?_text, hm.ofText?_text]

theorem ofText_display (s : String) : ofText (ofText s).display = ofText s := by
  rcases ofText_cases s with h | h | ⟨m, hm, h⟩
  · rw [h, display, h]
  · rw [h, display, h]
  · have hm := RegistryModule.readable_of_ofText? hm
    rw [h, display, ofText_of_head? hm.head?_display, hm.ofText?_display]

/-- **Sources survive printing.** The source that a text says is read back from its full text and
from the one without the default registry, so what is printed tells sources apart. -/
theorem printed_faithful :
    (∀ s, ofText (ofText s).display = ofText s ∧ ofText (ofText s).text = ofText s) ∧
      ∀ s t, (ofText s).display = (ofText t).display ↔ ofText s = ofText t := by
  refine ⟨fun s => ⟨ofText_display s, ofText_text s⟩, fun s t => ⟨fun h => ?_, fun h => by rw [h]⟩⟩
  calc
    ofText s = ofText (ofText s).display := (ofText_display s).symm
    _ = ofText (ofText t).display := by rw [h]
    _ = ofText t := ofText_display t

end ModuleSource

end EarlyConfig

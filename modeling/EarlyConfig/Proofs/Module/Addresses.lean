import EarlyConfig.Proofs.Module.Resolution
import EarlyConfig.Proofs.ProviderSources
import EarlyConfig.Report.Configuration

/-! The addresses of a module's providers as texts. The text of an address does not tell where its
parts end, and two addresses may share one. Those a module comes to cannot: a source has no slashes
within its parts, and a name that is taken as it stands comes last (`Provider.Segmented`). So the
record of the requirements has a field for each address (`requirement_texts_nodup`). -/
namespace EarlyConfig

/-! ### Addresses -/

namespace Provider

/-- The parts of the address before its type have no slash. The type may have any. -/
structure Segmented (p : Provider) : Prop where
  host : '/' ∉ p.hostname.toList
  inNamespace : '/' ∉ p.namespaceName.toList

theorem segmented_legacy (name : String) : (legacy name).Segmented where
  host := by simp only [legacy]; decide
  inNamespace := by simp only [legacy]; decide

theorem segmented_of_ofSource {s : String} {p : Provider} (h : ofSource s = .ok p) :
    p.Segmented := by
  have hspelled : p.Spelled := (names_of_ofSource h).spelled
  exact ⟨hspelled.host.slash, hspelled.inNamespace.slash⟩

theorem toList_text (p : Provider) :
    p.text.toList = p.hostname.toList ++ '/' :: (p.namespaceName.toList ++ '/' ::
      p.typeName.toList) := by
  simp [text, String.intercalate_cons_cons]

/-- The first slash ends the host and the second the namespace. -/
theorem Segmented.text_inj {p q : Provider} (hp : p.Segmented) (hq : q.Segmented)
    (h : p.text = q.text) : p = q := by
  have hchars := congrArg String.toList h
  rw [toList_text, toList_text] at hchars
  have houter := congrArg (Text.cut '/') hchars
  rw [Text.cut_append hp.host, Text.cut_append hq.host] at houter
  have hinner := congrArg (Text.cut '/') (Option.some.inj (congrArg Prod.snd houter))
  rw [Text.cut_append hp.inNamespace, Text.cut_append hq.inNamespace] at hinner
  have hhost : p.hostname = q.hostname := String.ext (congrArg Prod.fst houter)
  have hnamespace : p.namespaceName = q.namespaceName := String.ext (congrArg Prod.fst hinner)
  have htype : p.typeName = q.typeName :=
    String.ext (Option.some.inj (congrArg Prod.snd hinner))
  cases p
  cases q
  simp_all

/-- With slashes elsewhere, two addresses have one text. -/
example : text ⟨"a/b", "c", "d"⟩ = text ⟨"a", "b/c", "d"⟩ := by decide

end Provider

/-! ### Records -/

/-- Entries with different keys stay as they are. -/
theorem Entries.ofList_of_nodup {κ α : Type} [DecidableEq κ] {es : List (κ × α)}
    (h : (keys es).Nodup) : ofList es = es := by
  -- The induction is over the entries still to come, after those put already.
  have hputs : ∀ acc : List (κ × α), (keys (acc ++ es)).Nodup →
      es.foldl (fun acc e => put e.1 e.2 acc) acc = acc ++ es := by
    induction es with
    | nil => simp
    | cons e rest ih =>
      intro acc hacc
      have hmoved : acc ++ e :: rest = acc ++ [e] ++ rest := by simp
      have hfresh : e.1 ∉ keys acc := by
        rw [keys, List.map_append, List.map_cons, List.nodup_append] at hacc
        exact fun hmem => hacc.2.2 _ hmem _ (List.mem_cons_self ..) rfl
      rw [List.foldl_cons, put_of_new e.2 hfresh, hmoved]
      rw [hmoved] at hacc
      exact ih (List.nodup_cons.1 h).2 _ hacc
  exact hputs [] h

namespace Document

theorem mergedFields_eq_map (fields : List (String × Document)) :
    mergedFields fields = fields.map fun field => (field.1, field.2.merged) := by
  induction fields with
  | nil => rfl
  | cons field rest ih => rw [mergedFields, ih, List.map_cons]

/-- A map of simple data loses nothing as a record if its keys have different texts. -/
theorem merged_ofMap {κ α : Type} [Ord κ] {key : κ → String} {f : α → Document}
    (hf : ∀ a, (f a).merged = f a) {m : SortedMap κ α} (h : (m.keys.map key).Nodup) :
    (ofMap key f m).merged = ofMap key f m := by
  have hofMap : ofMap key f m = .record (m.entries.map fun e => (key e.1, f e.2)) := rfl
  have hfields : mergedFields (m.entries.map fun e => (key e.1, f e.2)) =
      m.entries.map fun e => (key e.1, f e.2) := by
    rw [mergedFields_eq_map, List.map_map]
    exact List.map_congr_left fun e _ => by simp [hf]
  have hkeys : Entries.keys (m.entries.map fun e => (key e.1, f e.2)) = m.keys.map key := by
    rw [Entries.keys, SortedMap.keys, List.map_map, List.map_map]
    rfl
  rw [hofMap, merged, hfields, Entries.ofList_of_nodup (hkeys ▸ h)]

end Document

/-! ### Requirements -/

/-- Keys that a function tells apart have different images, since no key comes twice. -/
theorem SortedMap.nodup_map_keys {κ α β : Type} [Ord κ] [Std.TransOrd κ] {m : SortedMap κ α}
    {f : κ → β} (hf : ∀ k ∈ m.keys, ∀ k' ∈ m.keys, f k = f k' → k = k') :
    (m.keys.map f).Nodup := by
  have hsorted : m.keys.Pairwise fun k k' => compare k k' = .lt := List.pairwise_map.2 m.sorted
  refine List.pairwise_map.2 (hsorted.imp_of_mem fun {k k'} hk hk' hlt heq => ?_)
  have hself : compare k' k' = .eq := Std.ReflCmp.compare_self
  rw [hf k hk k' hk' heq, hself] at hlt
  cases hlt

namespace ModuleConfig

theorem Draft.segmented_of_requiredAddress {d : Draft} {name : String} {p : Provider}
    (h : d.requiredAddress name = some p) : p.Segmented := by
  obtain ⟨r, -, hvalue⟩ := Option.bind_eq_some_iff.1 h
  rw [RequiredProvider.value_address] at hvalue
  cases hsource : r.source with
  | none =>
    rw [hsource, Option.ite_none_left_eq_some, Option.some.injEq] at hvalue
    exact hvalue.2 ▸ Provider.segmented_legacy name
  | some source =>
    rw [hsource] at hvalue
    cases hread : Provider.ofSource source.value with
    | error e => simp [hread, Except.toOption] at hvalue
    | ok q =>
      have hq : q = p := by simpa [hread, Except.toOption] using hvalue
      exact hq ▸ Provider.segmented_of_ofSource hread

/-- An address is that of a local name, by its requirement or by the name as it stands. -/
theorem segmented_of_mem_keys {path : String} {files : FileSet} {p : Provider}
    (h : p ∈ (load path files).value.providers.requirements.keys) : p.Segmented := by
  have hcoherent := collected_coherent files
  have hconsistent : (load path files).value.providers.Consistent :=
    Providers.resolve_consistent hcoherent
  obtain ⟨ref, href⟩ := SortedMap.mem_values.1 ((hconsistent.addresses p).2 h)
  have hdefault : ((dialect.collected files).requiredAddress ref.localName).or
      ((dialect.collected files).impliedAddress ref.localName) = some p :=
    ((Providers.get?_references hcoherent (.ofName ref.localName)).trans (if_pos rfl)).symm.trans
      (hconsistent.defaults ref p href)
  rcases Option.or_eq_some_iff.1 hdefault with hrequired | ⟨-, himplied⟩
  · exact Draft.segmented_of_requiredAddress hrequired
  · rw [Draft.impliedAddress, Option.ite_none_right_eq_some, Option.some.injEq] at himplied
    exact himplied.2 ▸ Provider.segmented_legacy ref.localName

/-- **Requirements as a record lose nothing.** Whatever the files of a module say, no two of the
addresses that it has requirements for have one text. So the record of the requirements, in which of
fields with one name the last would stay, keeps them all. -/
theorem requirement_texts_nodup (path : String) (files : FileSet) :
    let requirements := (load path files).value.providers.requirements
    (requirements.keys.map Provider.text).Nodup ∧
      (Document.ofMap Provider.text .ofConstraints requirements).merged =
        Document.ofMap Provider.text .ofConstraints requirements := by
  intro requirements
  have htexts : (requirements.keys.map Provider.text).Nodup :=
    SortedMap.nodup_map_keys fun p hp q hq htext =>
      (segmented_of_mem_keys hp).text_inj (segmented_of_mem_keys hq) htext
  exact ⟨htexts, Document.merged_ofMap (fun _ => rfl) htexts⟩

end ModuleConfig

end EarlyConfig

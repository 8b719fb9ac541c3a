import EarlyConfig.Proofs.Conversion
import EarlyConfig.Proofs.LookUps
import EarlyConfig.Proofs.Types

/-! The values of a type, and that conversion to the type gives exactly those. `Conforms` says what
a value of a type looks like without looking at conversion; `convert_conforms` says that conversion
gives nothing else, `convert_of_conforms` that it leaves such a value alone. Together they say what
the image of conversion is (`convert_image`). -/
namespace EarlyConfig.Value

/-- A value of a type. The values under `any` are all that are known; tuples have an element for
each type, and objects have exactly the declared attributes in the declared order. -/
inductive Conforms : Value → Ty → Prop
  | null {t : Ty} : Conforms .null t
  | unknown {t : Ty} : Conforms (.unknown t) t
  | any {v : Value} (known : v.isKnown = true) : Conforms v .any
  | string {s : String} : Conforms (.text s) .string
  | number {n : Number} : Conforms (.number n) .number
  | bool {b : Bool} : Conforms (.bool b) .bool
  | list {t : Ty} {vs : List Value} (elements : ∀ v ∈ vs, Conforms v t) :
      Conforms (.list vs) (.list t)
  | set {t : Ty} {vs : List Value} (elements : ∀ v ∈ vs, Conforms v t)
      (different : vs.Pairwise fun v w => v.same w = false) : Conforms (.set vs) (.set t)
  | map {t : Ty} {es : List (String × Value)} (values : ∀ e ∈ es, Conforms e.2 t) :
      Conforms (.map es) (.map t)
  | tuple {ts : List Ty} {vs : List Value} (length : ts.length = vs.length)
      (elements : ∀ p ∈ ts.zip vs, Conforms p.2 p.1) : Conforms (.tuple vs) (.tuple ts)
  | object {fields : List (Field Ty)} {es : List (String × Value)}
      (names : fields.map (·.name) = Entries.keys es)
      (values : ∀ p ∈ fields.zip es, Conforms p.2.2 p.1.type) :
      Conforms (.object es) (.object fields)

/-! ### Sets -/

/-- One element taken up into those kept so far. -/
def keep (kept : List Value) (v : Value) : List Value :=
  if kept.any (·.same v) then kept else kept ++ [v]

theorem mem_foldl_keep {vs kept : List Value} {v : Value} (h : v ∈ vs.foldl keep kept) :
    v ∈ kept ∨ v ∈ vs := by
  induction vs generalizing kept with
  | nil => exact .inl h
  | cons u rest ih =>
    rcases ih h with h | h
    · unfold keep at h
      split at h
      · exact .inl h
      · rcases List.mem_append.1 h with h | h
        · exact .inl h
        · rw [List.mem_singleton.1 h]
          exact .inr (List.mem_cons_self ..)
    · exact .inr (List.mem_cons_of_mem _ h)

theorem mem_distinct {vs : List Value} {v : Value} (h : v ∈ distinct vs) : v ∈ vs := by
  rcases mem_foldl_keep h with h | h
  · cases h
  · exact h

theorem keep_pairwise {kept : List Value} (h : kept.Pairwise fun v w => v.same w = false)
    (v : Value) : (keep kept v).Pairwise fun v w => v.same w = false := by
  unfold keep
  split
  · exact h
  · rename_i hnew
    refine List.pairwise_append.2 ⟨h, List.pairwise_singleton .., ?_⟩
    intro u hu w hw
    rw [List.mem_singleton.1 hw]
    simp only [List.any_eq_true, not_exists, not_and, Bool.not_eq_true] at hnew
    exact hnew u hu

theorem distinct_pairwise (vs : List Value) :
    (distinct vs).Pairwise fun v w => v.same w = false :=
  List.foldlRecOn vs keep .nil fun _ h v _ => keep_pairwise h v

/-- Elements that differ from all before them are all kept. -/
theorem foldl_keep_of_pairwise {vs kept : List Value}
    (h : (kept ++ vs).Pairwise fun v w => v.same w = false) : vs.foldl keep kept = kept ++ vs := by
  induction vs generalizing kept with
  | nil => simp
  | cons v rest ih =>
    have hnew : kept.any (·.same v) = false := by
      rw [List.any_eq_false]
      intro u hu
      simp [(List.pairwise_append.1 h).2.2 u hu v (List.mem_cons_self ..)]
    have hkeep : keep kept v = kept ++ [v] := by
      rw [keep, hnew]
      rfl
    rw [List.foldl_cons, hkeep, ih (by simpa using h)]
    simp

theorem distinct_of_pairwise {vs : List Value} (h : vs.Pairwise fun v w => v.same w = false) :
    distinct vs = vs :=
  foldl_keep_of_pairwise h

/-! ### What conversion gives -/

theorem toText_eq_ok {v w : Value} (h : v.toText = .ok w) : ∃ s, w = .text s := by
  unfold toText at h
  split at h <;> cases h <;> exact ⟨_, rfl⟩

theorem toNumber_eq_ok {v w : Value} (h : v.toNumber = .ok w) : ∃ n, w = .number n := by
  unfold toNumber at h
  split at h
  · cases h
    exact ⟨_, rfl⟩
  · split at h <;> cases h
    exact ⟨_, rfl⟩
  · cases h

theorem toBool_eq_ok {v w : Value} (h : v.toBool = .ok w) : ∃ b, w = .bool b := by
  unfold toBool at h
  split at h <;> cases h <;> exact ⟨_, rfl⟩

/-- Null and unknown values conform whatever the type, so only the others need a look. -/
theorem conforms_of_given {t : Ty}
    (h : ∀ v w, v.isGiven = true → convert t v = .ok w → Conforms w t) (v w : Value)
    (hw : convert t v = .ok w) : Conforms w t := by
  rcases v.null_or_unknown_or_given with rfl | ⟨s, rfl⟩ | hv
  · cases (convert_null t).symm.trans hw
    exact .null
  · cases (convert_unknown t s).symm.trans hw
    exact .unknown
  · exact h v w hv hw

theorem getElem?_of_forall₂ {α β : Type} {R : α → β → Prop} {xs : List α} {ys : List β}
    (h : List.Forall₂ R xs ys) {i : Nat} {y : β} (hy : ys[i]? = some y) :
    ∃ x, xs[i]? = some x ∧ R x y := by
  induction h generalizing i with
  | nil => cases hy
  | cons hr _ ih =>
    cases i with
    | zero =>
      cases hy
      exact ⟨_, rfl, hr⟩
    | succ i => exact ih hy

theorem exists_of_forall₂ {α β : Type} {R : α → β → Prop} {xs : List α} {ys : List β}
    (h : List.Forall₂ R xs ys) {y : β} (hy : y ∈ ys) : ∃ x ∈ xs, R x y := by
  obtain ⟨i, hi⟩ := List.mem_iff_getElem?.1 hy
  obtain ⟨x, hx, hxy⟩ := getElem?_of_forall₂ h hi
  exact ⟨x, List.mem_of_getElem? hx, hxy⟩

/-- Each position of a converted tuple comes from a value of the type at that position. -/
theorem convertTuple_positions {ts : List Ty} {vs ws : List Value} (hlen : vs.length = ts.length)
    (h : List.Forall₂ (fun p w => convert p.1 p.2 = .ok w) (ts.zip vs) ws) :
    List.Forall₂ (fun t w => ∃ v, convert t v = .ok w) ts ws := by
  have hfst : (ts.zip vs).map Prod.fst = ts := List.map_fst_zip (Nat.le_of_eq hlen.symm)
  rw [← hfst, List.forall₂_map_left_iff]
  exact h.imp fun p w hw => ⟨p.2, hw⟩

theorem names_eq_keys {fields : List (Field Ty)} {es : List (String × Value)} :
    fields.map (·.name) = Entries.keys es ↔ List.Forall₂ (fun f e => e.1 = f.name) fields es := by
  rw [← List.forall₂_eq_eq_eq, Entries.keys, List.forall₂_map_left_iff, List.forall₂_map_right_iff]
  simp only [eq_comm]

theorem convert_conforms {t : Ty} : ∀ v w, convert t v = .ok w → Conforms w t := by
  induction t with
  | any =>
    refine conforms_of_given fun v w hv h => ?_
    rw [convert_any hv] at h
    cases h
    exact .any (by cases v <;> first | rfl | cases hv)
  | string =>
    refine conforms_of_given fun v w hv h => ?_
    rw [convert_string hv] at h
    obtain ⟨s, rfl⟩ := toText_eq_ok h
    exact .string
  | number =>
    refine conforms_of_given fun v w hv h => ?_
    rw [convert_number hv] at h
    obtain ⟨n, rfl⟩ := toNumber_eq_ok h
    exact .number
  | bool =>
    refine conforms_of_given fun v w hv h => ?_
    rw [convert_bool hv] at h
    obtain ⟨b, rfl⟩ := toBool_eq_ok h
    exact .bool
  | list t ih =>
    refine conforms_of_given fun v w hv h => ?_
    obtain ⟨vs, ws, -, hws, rfl⟩ := (convert_list_eq_ok hv).1 h
    refine .list fun w hw => ?_
    obtain ⟨v, -, hvw⟩ := exists_of_forall₂ hws hw
    exact ih v w hvw
  | set t ih =>
    refine conforms_of_given fun v w hv h => ?_
    obtain ⟨vs, ws, -, hws, rfl⟩ := (convert_set_eq_ok hv).1 h
    refine .set (fun w hw => ?_) (distinct_pairwise ws)
    obtain ⟨v, -, hvw⟩ := exists_of_forall₂ hws (mem_distinct hw)
    exact ih v w hvw
  | map t ih =>
    refine conforms_of_given fun v w hv h => ?_
    obtain ⟨es, fs, -, hfs, rfl⟩ := (convert_map_eq_ok hv).1 h
    refine .map fun e he => ?_
    obtain ⟨d, -, -, hde⟩ := exists_of_forall₂ hfs he
    exact ih d.2 e.2 hde
  | tuple ts ih =>
    refine conforms_of_given fun v w hv h => ?_
    obtain ⟨vs, ws, -, hlen, hws, rfl⟩ := (convert_tuple_eq_ok hv).1 h
    have hts := convertTuple_positions hlen hws
    refine .tuple hts.length_eq fun p hp => ?_
    obtain ⟨v, hvw⟩ := List.forall₂_zip hts hp
    exact ih p.1 (List.of_mem_zip hp).1 v p.2 hvw
  | object fields ih =>
    refine conforms_of_given fun v w hv h => ?_
    obtain ⟨es, fs, -, hfs, rfl⟩ := (convert_object_eq_ok hv).1 h
    refine .object (names_eq_keys.2 (hfs.imp fun f e h => h.1)) fun p hp => ?_
    obtain ⟨-, v, -, hvw⟩ := List.forall₂_zip hfs hp
    exact ih p.1 (List.of_mem_zip hp).1 v p.2.2 hvw

/-- Nothing but null becomes null. -/
theorem eq_null_of_convert {t : Ty} {v : Value} (h : convert t v = .ok .null) : v = .null := by
  rcases v.null_or_unknown_or_given with rfl | ⟨s, rfl⟩ | hv
  · rfl
  · cases (convert_unknown t s).symm.trans h
  · cases t with
    | any =>
      rw [convert_any hv] at h
      cases h
      rfl
    | string => obtain ⟨_, hw⟩ := toText_eq_ok (convert_string hv ▸ h); cases hw
    | number => obtain ⟨_, hw⟩ := toNumber_eq_ok (convert_number hv ▸ h); cases hw
    | bool => obtain ⟨_, hw⟩ := toBool_eq_ok (convert_bool hv ▸ h); cases hw
    | list t => obtain ⟨_, _, _, _, hw⟩ := (convert_list_eq_ok hv).1 h; cases hw
    | set t => obtain ⟨_, _, _, _, hw⟩ := (convert_set_eq_ok hv).1 h; cases hw
    | map t => obtain ⟨_, _, _, _, hw⟩ := (convert_map_eq_ok hv).1 h; cases hw
    | tuple ts => obtain ⟨_, _, _, _, _, hw⟩ := (convert_tuple_eq_ok hv).1 h; cases hw
    | object fields => obtain ⟨_, _, _, _, hw⟩ := (convert_object_eq_ok hv).1 h; cases hw

/-! ### What conversion leaves alone -/

theorem given?_of_mem {fields : List (Field Ty)} {es : List (String × Value)}
    (hnames : fields.map (·.name) = Entries.keys es) (hnodup : (fields.map (·.name)).Nodup)
    {p : Field Ty × String × Value} (hp : p ∈ fields.zip es) :
    p.2.1 = p.1.name ∧ given? p.1 es = some p.2.2 := by
  have hname : p.2.1 = p.1.name := List.forall₂_zip (names_eq_keys.1 hnames) hp
  have hmem : (p.1.name, p.2.2) ∈ es := by
    rw [← hname]
    exact (List.of_mem_zip hp).2
  have hget := Entries.get?_of_mem (hnames ▸ hnodup) hmem
  exact ⟨hname, by rw [given?, hget, Option.some_or]⟩

theorem convert_of_conforms {t : Ty} {w : Value} (h : Conforms w t) (ht : t.WellFormed) :
    convert t w = .ok w := by
  induction h with
  | null => exact convert_null _
  | unknown => exact convert_unknown _ _
  | @any v known =>
    rcases v.null_or_unknown_or_given with rfl | ⟨s, rfl⟩ | hv
    · exact convert_null _
    · cases known
    · exact convert_any hv
  | string => exact convert_string rfl
  | number => exact convert_number rfl
  | bool => exact convert_bool rfl
  | @list t vs _ ih =>
    cases ht with
    | list ht =>
      refine (convert_list_eq_ok rfl).2 ⟨vs, vs, rfl, ?_, rfl⟩
      exact List.forall₂_same.2 fun v hv => ih v hv ht
  | @set t vs _ different ih =>
    cases ht with
    | set ht =>
      refine (convert_set_eq_ok rfl).2 ⟨vs, vs, rfl, ?_, by rw [distinct_of_pairwise different]⟩
      exact List.forall₂_same.2 fun v hv => ih v hv ht
  | @map t es _ ih =>
    cases ht with
    | map ht =>
      refine (convert_map_eq_ok rfl).2 ⟨es, es, rfl, ?_, rfl⟩
      exact List.forall₂_same.2 fun e he => ⟨rfl, ih e he ht⟩
  | @tuple ts vs length _ ih =>
    cases ht with
    | tuple hts =>
      refine (convert_tuple_eq_ok rfl).2 ⟨vs, vs, rfl, length.symm, ?_, rfl⟩
      have hzip : List.Forall₂ (fun p w => convert p.1 p.2 = .ok w) (ts.zip vs)
          ((ts.zip vs).map Prod.snd) := by
        rw [List.forall₂_map_right_iff, List.forall₂_same]
        exact fun p hp => ih p hp (hts p.1 (List.of_mem_zip hp).1)
      rwa [List.map_snd_zip (Nat.le_of_eq length.symm)] at hzip
  | @object fields es names _ ih =>
    cases ht with
    | object hnodup hfields =>
      refine (convert_object_eq_ok rfl).2 ⟨es, es, rfl, ?_, rfl⟩
      refine List.forall₂_iff_zip.2 ⟨(names_eq_keys.1 names).length_eq, fun {f e} hp => ?_⟩
      obtain ⟨hname, hget⟩ := given?_of_mem names hnodup hp
      exact ⟨hname, e.2, hget, ih (f, e) hp (hfields f (List.of_mem_zip hp).1)⟩

/-- **The image of conversion to a type is the set of its values.** What conversion gives is a value
of the type, and a value of the type converts to itself. So converting twice is converting once. -/
theorem convert_image (t : Ty) :
    (∀ v w, convert t v = .ok w → Conforms w t) ∧
      (t.WellFormed → (∀ w, Conforms w t → convert t w = .ok w) ∧
        ∀ v w, convert t v = .ok w → convert t w = .ok w) := by
  refine ⟨convert_conforms, fun ht => ⟨fun w h => convert_of_conforms h ht, fun v w h => ?_⟩⟩
  exact convert_of_conforms (convert_conforms v w h) ht

/-- A set of numbers and an optional note. -/
def portsType : Ty :=
  .object [⟨"ports", false, .set .number⟩, ⟨"note", true, .string⟩]

theorem portsType_wellFormed : portsType.WellFormed := by
  refine .object (by decide) fun f hf => ?_
  simp only [List.mem_cons, List.not_mem_nil, or_false] at hf
  rcases hf with rfl | rfl
  · exact .set .number
  · exact .string

theorem convert_image_ports :
    let given : Value := .map [("extra", .bool true),
      ("ports", .tuple [.text " 80", .number (.int 80), .number (.int 443)])]
    let converted : Value := .object [("ports", .set [.number (.int 80), .number (.int 443)]),
      ("note", .null)]
    convert portsType given = .ok converted ∧ Conforms converted portsType ∧
      convert portsType converted = .ok converted := by
  intro given converted
  have hconverted : convert portsType given = .ok converted := by rfl
  obtain ⟨hconforms, hfixed⟩ := convert_image portsType
  have hagain := (hfixed portsType_wellFormed).2 given converted hconverted
  exact ⟨hconverted, hconforms given converted hconverted, hagain⟩

end EarlyConfig.Value

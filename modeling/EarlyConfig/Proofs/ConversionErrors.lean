import EarlyConfig.Proofs.Conversion

/-! Where conversion fails. It goes through the parts of a value in the order of elements, entries
or declared attributes and stops at the first that fails, so the path of an error leads past parts
that all convert (`Leads`) down to one that fails by itself (`Fault`). The two together say exactly
which error there is (`convert_error_iff`). -/
namespace EarlyConfig.Value

open Except (bind_eq_ok bind_pure_eq_error mapError_eq_error mapError_eq_ok mapM_eq_error_at
  pure_eq_ok)

/-- The value can be converted to the type. -/
def Converts (t : Ty) (v : Value) : Prop :=
  ∃ w, convert t v = .ok w

/-! ### Parts -/

/-- One step from a value and its type to a part that conversion comes to, which it does if all
parts before that one convert. -/
inductive Leads : Ty → Value → PathStep → Ty → Value → Prop
  | list {t : Ty} {v w : Value} {vs : List Value} {i : Nat} (elements : v.elements? = some vs)
      (here : vs[i]? = some w) (before : ∀ j < i, ∀ u, vs[j]? = some u → Converts t u) :
      Leads (.list t) v (.index i) t w
  | set {t : Ty} {v w : Value} {vs : List Value} {i : Nat} (elements : v.elements? = some vs)
      (here : vs[i]? = some w) (before : ∀ j < i, ∀ u, vs[j]? = some u → Converts t u) :
      Leads (.set t) v (.index i) t w
  | map {t : Ty} {v w : Value} {es : List (String × Value)} {i : Nat} {k : String}
      (entries : v.entries? = some es) (here : es[i]? = some (k, w))
      (before : ∀ j < i, ∀ d, es[j]? = some d → Converts t d.2) :
      Leads (.map t) v (.key k) t w
  | tuple {ts : List Ty} {t : Ty} {v w : Value} {vs : List Value} {i : Nat}
      (elements : v.elements? = some vs) (length : vs.length = ts.length)
      (type : ts[i]? = some t) (here : vs[i]? = some w)
      (before : ∀ j < i, ∀ s u, ts[j]? = some s → vs[j]? = some u → Converts s u) :
      Leads (.tuple ts) v (.index i) t w
  | object {fields : List (Field Ty)} {f : Field Ty} {v w : Value} {es : List (String × Value)}
      {i : Nat} (entries : v.entries? = some es) (field : fields[i]? = some f)
      (here : Entries.get? f.name es = some w)
      (before : ∀ j < i, ∀ g, fields[j]? = some g → ∃ u, given? g es = some u ∧ Converts g.type u) :
      Leads (.object fields) v (.attr f.name) f.type w

/-- The steps of a path one after another. -/
inductive Descends : Ty → Value → List PathStep → Ty → Value → Prop
  | here {t : Ty} {v : Value} : Descends t v [] t v
  | step {t t' t'' : Ty} {v v' v'' : Value} {s : PathStep} {path : List PathStep}
      (first : Leads t v s t' v') (rest : Descends t' v' path t'' v'') :
      Descends t v (s :: path) t'' v''

/-! ### Faults -/

/-- The kinds of values that conversion to the type looks into. -/
def admitted : Ty → List String
  | .any => ["bool", "number", "string", "list", "set", "tuple", "map", "object"]
  | .string => ["string", "number", "bool"]
  | .number => ["number", "string"]
  | .bool => ["bool", "string"]
  | .list _ => ["list", "set", "tuple"]
  | .set _ => ["list", "set", "tuple"]
  | .tuple _ => ["list", "set", "tuple"]
  | .map _ => ["map", "object"]
  | .object _ => ["map", "object"]

/-- What is said of a value of another kind. -/
def required? : Ty → Option Mismatch
  | .any => none
  | .string => some .stringRequired
  | .number => some .numberRequired
  | .bool => some .boolRequired
  | .list t => some (.listRequired t)
  | .set t => some (.setRequired t)
  | .map t => some (.mapRequired t)
  | .tuple _ => some .tupleRequired
  | .object _ => some .objectRequired

/-- What is wrong with a value by itself: its kind, the text of a primitive, the length of a tuple,
or an attribute that is missing though it is not optional, the first that is at fault. -/
inductive Fault : Ty → Value → Mismatch → Prop
  | otherKind {t : Ty} {v : Value} {m : Mismatch} (given : v.isGiven = true)
      (other : v.kind ∉ admitted t) (reason : required? t = some m) : Fault t v m
  | notNumeric {s : String} (text : Number.ofText? s = none) : Fault .number (.text s) .notNumeric
  | notBoolean {s : String} (yes : s ≠ "true") (no : s ≠ "false") :
      Fault .bool (.text s) .notBoolean
  | tupleLength {ts : List Ty} {v : Value} {vs : List Value} (elements : v.elements? = some vs)
      (length : vs.length ≠ ts.length) : Fault (.tuple ts) v (.tupleLength ts.length)
  | attributeMissing {fields : List (Field Ty)} {f : Field Ty} {v : Value}
      {es : List (String × Value)} {i : Nat} (entries : v.entries? = some es)
      (field : fields[i]? = some f) (needed : f.optional = false)
      (missing : Entries.get? f.name es = none)
      (before : ∀ j < i, ∀ g, fields[j]? = some g → ∃ u, given? g es = some u ∧ Converts g.type u) :
      Fault (.object fields) v (.attributeMissing f.name)

/-! ### Loops -/

section
variable {f : Value → Converted Value} {e : ConversionError}

theorem convertElements_eq_mapM (f : Value → Converted Value) (i : Nat) (vs : List Value) :
    convertElements f i vs =
      (vs.zipIdx i).mapM fun p => (f p.1).mapError (·.within (.index p.2)) := by
  induction vs generalizing i with
  | nil => rfl
  | cons v rest ih => rw [convertElements, ih, List.zipIdx_cons, List.mapM_cons]

theorem convertElements_eq_error {vs : List Value} :
    convertElements f 0 vs = .error e ↔ ∃ (i : Nat) (w : Value), vs[i]? = some w ∧
      (∃ e', f w = .error e' ∧ e = e'.within (.index i)) ∧
      ∀ j < i, ∀ u, vs[j]? = some u → ∃ x, f u = .ok x := by
  rw [convertElements_eq_mapM, mapM_eq_error_at]
  simp only [List.getElem?_zipIdx, Option.map_eq_some_iff, Nat.zero_add, mapError_eq_error,
    mapError_eq_ok]
  constructor
  · rintro ⟨i, _, ⟨w, hw, rfl⟩, herror, hbefore⟩
    exact ⟨i, w, hw, herror, fun j hj u hu => hbefore j hj _ ⟨u, hu, rfl⟩⟩
  · rintro ⟨i, w, hw, herror, hbefore⟩
    refine ⟨i, _, ⟨w, hw, rfl⟩, herror, ?_⟩
    rintro j hj _ ⟨u, hu, rfl⟩
    exact hbefore j hj u hu

theorem convertEntries_eq_mapM (f : Value → Converted Value) (es : List (String × Value)) :
    convertEntries f es =
      es.mapM fun d => (f d.2).mapError (·.within (.key d.1)) >>= fun w => pure (d.1, w) := by
  induction es with
  | nil => rfl
  | cons d rest ih => rw [convertEntries, ih, List.mapM_cons, bind_assoc]; simp only [pure_bind]

theorem convertEntries_eq_error {es : List (String × Value)} :
    convertEntries f es = .error e ↔ ∃ (i : Nat) (k : String) (w : Value), es[i]? = some (k, w) ∧
      (∃ e', f w = .error e' ∧ e = e'.within (.key k)) ∧
      ∀ j < i, ∀ d, es[j]? = some d → ∃ x, f d.2 = .ok x := by
  rw [convertEntries_eq_mapM, mapM_eq_error_at]
  simp only [bind_pure_eq_error, bind_eq_ok, pure_eq_ok, mapError_eq_error, mapError_eq_ok]
  constructor
  · rintro ⟨i, ⟨k, w⟩, hw, herror, hbefore⟩
    refine ⟨i, k, w, hw, herror, fun j hj d hd => ?_⟩
    obtain ⟨_, x, hx, -⟩ := hbefore j hj d hd
    exact ⟨x, hx⟩
  · rintro ⟨i, k, w, hw, herror, hbefore⟩
    refine ⟨i, (k, w), hw, herror, fun j hj d hd => ?_⟩
    obtain ⟨x, hx⟩ := hbefore j hj d hd
    exact ⟨_, x, hx, rfl⟩

theorem convertTuple_eq_mapM (i : Nat) (ts : List Ty) (vs : List Value) :
    convertTuple i ts vs = ((ts.zip vs).zipIdx i).mapM fun p =>
      (convert p.1.1 p.1.2).mapError (·.within (.index p.2)) := by
  induction ts generalizing i vs with
  | nil => rfl
  | cons t ts ih =>
    cases vs with
    | nil => rfl
    | cons v vs => rw [convertTuple, ih, List.zip_cons_cons, List.zipIdx_cons, List.mapM_cons]

theorem convertTuple_eq_error {ts : List Ty} {vs : List Value} :
    convertTuple 0 ts vs = .error e ↔ ∃ (i : Nat) (t : Ty) (w : Value), ts[i]? = some t ∧
      vs[i]? = some w ∧ (∃ e', convert t w = .error e' ∧ e = e'.within (.index i)) ∧
      ∀ j < i, ∀ s u, ts[j]? = some s → vs[j]? = some u → Converts s u := by
  rw [convertTuple_eq_mapM, mapM_eq_error_at]
  simp only [List.getElem?_zipIdx, Option.map_eq_some_iff, Nat.zero_add, mapError_eq_error,
    mapError_eq_ok, List.getElem?_zip_eq_some]
  constructor
  · rintro ⟨i, _, ⟨⟨t, w⟩, ⟨ht, hw⟩, rfl⟩, herror, hbefore⟩
    exact ⟨i, t, w, ht, hw, herror, fun j hj s u hs hu => hbefore j hj _ ⟨(s, u), ⟨hs, hu⟩, rfl⟩⟩
  · rintro ⟨i, t, w, ht, hw, herror, hbefore⟩
    refine ⟨i, _, ⟨(t, w), ⟨ht, hw⟩, rfl⟩, herror, ?_⟩
    rintro j hj _ ⟨⟨s, u⟩, ⟨hs, hu⟩, rfl⟩
    exact hbefore j hj s u hs hu

/-- What becomes of one declared attribute. -/
def convertField (es : List (String × Value)) (f : Field Ty) : Converted (String × Value) :=
  match Entries.get? f.name es with
  | some v => (convert f.type v).mapError (·.within (.attr f.name)) >>= fun w => pure (f.name, w)
  | none => if f.optional then pure (f.name, .null) else mismatch (.attributeMissing f.name)

theorem convertFields_eq_mapM (fields : List (Field Ty)) (es : List (String × Value)) :
    convertFields fields es = fields.mapM (convertField es) := by
  induction fields with
  | nil => rfl
  | cons f rest ih =>
    rw [convertFields, ih, List.mapM_cons, convertField]
    cases Entries.get? f.name es with
    | some v => simp only [bind_assoc, pure_bind]
    | none => cases f.optional <;> rfl

theorem convertField_eq_error {es : List (String × Value)} {f : Field Ty} :
    convertField es f = .error e ↔
      (∃ w e', Entries.get? f.name es = some w ∧ convert f.type w = .error e' ∧
        e = e'.within (.attr f.name)) ∨
      Entries.get? f.name es = none ∧ f.optional = false ∧ e = ⟨[], .attributeMissing f.name⟩ := by
  unfold convertField
  cases Entries.get? f.name es with
  | some v =>
    simp only [bind_pure_eq_error, mapError_eq_error, Option.some.injEq, exists_and_left,
      exists_eq_left', reduceCtorEq, false_and, or_false]
  | none => cases f.optional <;> simp [mismatch, pure, Except.pure, eq_comm]

theorem convertField_ok {es : List (String × Value)} {f : Field Ty} :
    (∃ x, convertField es f = .ok x) ↔ ∃ u, given? f es = some u ∧ Converts f.type u := by
  unfold convertField given? Converts
  cases Entries.get? f.name es with
  | some v =>
    simp only [bind_eq_ok, mapError_eq_ok, pure_eq_ok, Option.some_or, Option.some.injEq,
      exists_eq_left']
    exact ⟨fun ⟨_, w, hw, _⟩ => ⟨w, hw⟩, fun ⟨w, hw⟩ => ⟨_, w, hw, rfl⟩⟩
  | none => cases f.optional <;> simp [mismatch, pure, Except.pure, convert_null]

theorem convertFields_eq_error {fields : List (Field Ty)} {es : List (String × Value)} :
    convertFields fields es = .error e ↔ ∃ (i : Nat) (f : Field Ty), fields[i]? = some f ∧
      ((∃ w e', Entries.get? f.name es = some w ∧ convert f.type w = .error e' ∧
          e = e'.within (.attr f.name)) ∨
        Entries.get? f.name es = none ∧ f.optional = false ∧ e = ⟨[], .attributeMissing f.name⟩) ∧
      ∀ j < i, ∀ g, fields[j]? = some g → ∃ u, given? g es = some u ∧ Converts g.type u := by
  simp only [convertFields_eq_mapM, mapM_eq_error_at, convertField_eq_error, convertField_ok]

end

/-! ### One level -/

section
variable {v : Value} {e : ConversionError}

theorem isGiven_of_elements? {vs : List Value} (h : v.elements? = some vs) : v.isGiven = true := by
  cases v <;> first | rfl | cases h

theorem isGiven_of_entries? {es : List (String × Value)} (h : v.entries? = some es) :
    v.isGiven = true := by
  cases v <;> first | rfl | cases h

theorem elements?_eq_none : v.elements? = none ↔ v.kind ∉ ["list", "set", "tuple"] := by
  cases v <;> simp [elements?, kind]

theorem entries?_eq_none : v.entries? = none ↔ v.kind ∉ ["map", "object"] := by
  cases v <;> simp [entries?, kind]

theorem fault_of_toText (hv : v.isGiven = true) (h : v.toText = .error e) :
    e.path = [] ∧ Fault .string v e.reason := by
  unfold toText at h
  split at h <;> cases h
  rename_i htext hnumber hbool
  refine ⟨rfl, .otherKind hv ?_ rfl⟩
  cases v <;> simp_all [admitted, kind, isGiven]

theorem fault_of_toNumber (hv : v.isGiven = true) (h : v.toNumber = .error e) :
    e.path = [] ∧ Fault .number v e.reason := by
  unfold toNumber at h
  split at h
  · cases h
  · rename_i s
    split at h <;> cases h
    rename_i hs
    exact ⟨rfl, .notNumeric hs⟩
  · cases h
    rename_i hnumber htext
    refine ⟨rfl, .otherKind hv ?_ rfl⟩
    cases v <;> simp_all [admitted, kind, isGiven]

theorem fault_of_toBool (hv : v.isGiven = true) (h : v.toBool = .error e) :
    e.path = [] ∧ Fault .bool v e.reason := by
  unfold toBool at h
  split at h <;> cases h
  · rename_i s hyes hno
    exact ⟨rfl, .notBoolean (fun hs => hyes (by rw [hs])) fun hs => hno (by rw [hs])⟩
  · rename_i hbool _ _ htext
    refine ⟨rfl, .otherKind hv ?_ rfl⟩
    cases v <;> simp_all [admitted, kind, isGiven]

/-- A fault is what conversion says of the value. -/
theorem Fault.convert_eq {t : Ty} {m : Mismatch} (h : Fault t v m) :
    convert t v = .error ⟨[], m⟩ := by
  cases h with
  | otherKind given other reason =>
    rw [convert_given given]
    cases t with
    | any => cases reason
    | string | number | bool =>
      cases reason
      cases v <;> first | rfl | simp [admitted, kind] at other
    | list t | set t | tuple ts =>
      cases reason
      rw [elements?_eq_none.2 other]
      rfl
    | map t | object fields =>
      cases reason
      rw [entries?_eq_none.2 other]
      rfl
  | notNumeric text =>
    rw [convert_number rfl, toNumber, text]
    rfl
  | @notBoolean s yes no =>
    rw [convert_bool rfl]
    unfold toBool
    split <;> simp_all [mismatch]
  | tupleLength elements length =>
    rw [convert_given (isGiven_of_elements? elements)]
    simp only [elements, if_neg length]
    rfl
  | attributeMissing entries field needed missing before =>
    rw [convert_given (isGiven_of_entries? entries)]
    simp only [entries, bind_pure_eq_error, convertFields_eq_error]
    exact ⟨_, _, field, .inr ⟨missing, needed, rfl⟩, before⟩

/-- A part that fails makes the whole fail, if conversion comes to it. -/
theorem Leads.convert_eq {t t' : Ty} {v' : Value} {s : PathStep} (h : Leads t v s t' v')
    (he : convert t' v' = .error e) : convert t v = .error (e.within s) := by
  cases h with
  | list elements here before | set elements here before =>
    rw [convert_given (isGiven_of_elements? elements)]
    simp only [elements, bind_pure_eq_error, convertElements_eq_error]
    exact ⟨_, _, here, ⟨e, he, rfl⟩, before⟩
  | map entries here before =>
    rw [convert_given (isGiven_of_entries? entries)]
    simp only [entries, bind_pure_eq_error, convertEntries_eq_error]
    exact ⟨_, _, _, here, ⟨e, he, rfl⟩, before⟩
  | tuple elements length type here before =>
    rw [convert_given (isGiven_of_elements? elements)]
    simp only [elements, if_pos length, bind_pure_eq_error, convertTuple_eq_error]
    exact ⟨_, _, _, type, here, ⟨e, he, rfl⟩, before⟩
  | object entries field here before =>
    rw [convert_given (isGiven_of_entries? entries)]
    simp only [entries, bind_pure_eq_error, convertFields_eq_error]
    exact ⟨_, _, field, .inl ⟨_, e, here, he, rfl⟩, before⟩

/-- A failure arises at the value itself or in a part that conversion comes to. -/
theorem fault_or_leads {t : Ty} (h : convert t v = .error e) :
    (e.path = [] ∧ Fault t v e.reason) ∨
      ∃ s t' v' e', Leads t v s t' v' ∧ convert t' v' = .error e' ∧ e = e'.within s := by
  -- Null and unknown values convert to every type.
  rcases v.null_or_unknown_or_given with rfl | ⟨s, rfl⟩ | hv
  · cases (convert_null t).symm.trans h
  · cases (convert_unknown t s).symm.trans h
  cases t with
  | any => cases (convert_any hv).symm.trans h
  | string => exact .inl (fault_of_toText hv ((convert_string hv).symm.trans h))
  | number => exact .inl (fault_of_toNumber hv ((convert_number hv).symm.trans h))
  | bool => exact .inl (fault_of_toBool hv ((convert_bool hv).symm.trans h))
  | list t | set t =>
    rw [convert_given hv] at h
    cases hvs : v.elements? with
    | none =>
      rw [hvs] at h
      cases h
      exact .inl ⟨rfl, .otherKind hv (elements?_eq_none.1 hvs) rfl⟩
    | some vs =>
      simp only [hvs, bind_pure_eq_error, convertElements_eq_error] at h
      obtain ⟨i, w, here, ⟨e', he', rfl⟩, before⟩ := h
      refine .inr ⟨_, _, _, e', ?_, he', rfl⟩
      first | exact .list hvs here before | exact .set hvs here before
  | map t =>
    rw [convert_given hv] at h
    cases hes : v.entries? with
    | none =>
      rw [hes] at h
      cases h
      exact .inl ⟨rfl, .otherKind hv (entries?_eq_none.1 hes) rfl⟩
    | some es =>
      simp only [hes, bind_pure_eq_error, convertEntries_eq_error] at h
      obtain ⟨i, k, w, here, ⟨e', he', rfl⟩, before⟩ := h
      exact .inr ⟨_, _, _, e', .map hes here before, he', rfl⟩
  | tuple ts =>
    rw [convert_given hv] at h
    cases hvs : v.elements? with
    | none =>
      rw [hvs] at h
      cases h
      exact .inl ⟨rfl, .otherKind hv (elements?_eq_none.1 hvs) rfl⟩
    | some vs =>
      by_cases hlen : vs.length = ts.length
      · simp only [hvs, if_pos hlen, bind_pure_eq_error, convertTuple_eq_error] at h
        obtain ⟨i, t, w, ht, here, ⟨e', he', rfl⟩, before⟩ := h
        exact .inr ⟨_, _, _, e', .tuple hvs hlen ht here before, he', rfl⟩
      · simp only [hvs, if_neg hlen] at h
        cases h
        exact .inl ⟨rfl, .tupleLength hvs hlen⟩
  | object fields =>
    rw [convert_given hv] at h
    cases hes : v.entries? with
    | none =>
      rw [hes] at h
      cases h
      exact .inl ⟨rfl, .otherKind hv (entries?_eq_none.1 hes) rfl⟩
    | some es =>
      simp only [hes, bind_pure_eq_error, convertFields_eq_error] at h
      obtain ⟨i, f, hf, ⟨w, e', here, he', rfl⟩ | ⟨missing, needed, rfl⟩, before⟩ := h
      · exact .inr ⟨_, _, _, e', .object hes hf here before, he', rfl⟩
      · exact .inl ⟨rfl, .attributeMissing hes hf needed missing before⟩

/-! ### Whole paths -/

theorem Descends.convert_eq {t t' : Ty} {v' : Value} {path : List PathStep} {m : Mismatch}
    (h : Descends t v path t' v') (hm : convert t' v' = .error ⟨[], m⟩) :
    convert t v = .error ⟨path, m⟩ := by
  induction h with
  | here => exact hm
  | step first _ ih => exact first.convert_eq (ih hm)

theorem descends_of_error {t : Ty} (h : convert t v = .error e) :
    ∃ t' v', Descends t v e.path t' v' ∧ Fault t' v' e.reason := by
  obtain ⟨path, m⟩ := e
  -- On the path, not the value: the rest of the path belongs to whatever part the step leads to.
  induction path generalizing t v with
  | nil =>
    rcases fault_or_leads h with ⟨-, hfault⟩ | ⟨s, t', v', e', -, -, he⟩
    · exact ⟨t, v, .here, hfault⟩
    · cases he
  | cons s path ih =>
    rcases fault_or_leads h with ⟨hpath, -⟩ | ⟨s, t', v', e', hfirst, herror, he⟩
    · cases hpath
    · cases he
      obtain ⟨t'', v'', hrest, hfault⟩ := ih herror
      exact ⟨t'', v'', .step hfirst hrest, hfault⟩

/-- **An error points at the first culprit.** Conversion fails exactly if the path of the error
leads past parts that convert to a part that is at fault by itself, for the reason of the error. -/
theorem convert_error_iff {t : Ty} :
    convert t v = .error e ↔ ∃ t' v', Descends t v e.path t' v' ∧
      convert t' v' = .error ⟨[], e.reason⟩ ∧ Fault t' v' e.reason := by
  constructor
  · intro h
    obtain ⟨t', v', hpath, hfault⟩ := descends_of_error h
    exact ⟨t', v', hpath, hfault.convert_eq, hfault⟩
  · rintro ⟨t', v', hpath, herror, -⟩
    exact hpath.convert_eq herror

end

end EarlyConfig.Value

import EarlyConfig.Ty

/-! Induction over types, and the types in which no object declares an attribute twice. -/
namespace EarlyConfig.Ty

/-- Induction over a type: a property of a type may assume it of all types directly inside. -/
@[elab_as_elim, induction_eliminator]
theorem induction {motive : Ty → Prop} (any : motive .any) (string : motive .string)
    (number : motive .number) (bool : motive .bool) (list : ∀ t, motive t → motive (.list t))
    (set : ∀ t, motive t → motive (.set t)) (map : ∀ t, motive t → motive (.map t))
    (tuple : ∀ ts, (∀ t ∈ ts, motive t) → motive (.tuple ts))
    (object : ∀ fields, (∀ f ∈ fields, motive f.type) → motive (.object fields)) (t : Ty) :
    motive t := by
  refine @Ty.rec motive (fun ts => ∀ t ∈ ts, motive t) (fun fields => ∀ f ∈ fields, motive f.type)
    (fun f => motive f.type) any string number bool list set map tuple object ?_ ?_ ?_ ?_ ?_ t
  · exact fun t h => nomatch h
  · exact fun t ts ht hts => List.forall_mem_cons.2 ⟨ht, hts⟩
  · exact fun f h => nomatch h
  · exact fun f fields hf hfields => List.forall_mem_cons.2 ⟨hf, hfields⟩
  · exact fun name optional type h => h

/-- No object type in it declares an attribute twice. -/
inductive WellFormed : Ty → Prop
  | any : WellFormed .any
  | string : WellFormed .string
  | number : WellFormed .number
  | bool : WellFormed .bool
  | list {t : Ty} (element : WellFormed t) : WellFormed (.list t)
  | set {t : Ty} (element : WellFormed t) : WellFormed (.set t)
  | map {t : Ty} (element : WellFormed t) : WellFormed (.map t)
  | tuple {ts : List Ty} (elements : ∀ t ∈ ts, WellFormed t) : WellFormed (.tuple ts)
  | object {fields : List (Field Ty)} (names : (fields.map (·.name)).Nodup)
      (types : ∀ f ∈ fields, WellFormed f.type) : WellFormed (.object fields)

end EarlyConfig.Ty

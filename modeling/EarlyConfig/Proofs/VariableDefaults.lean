import EarlyConfig.Dialect.Variable
import EarlyConfig.Proofs.TypeExpressions

/-! Default values of variables. A default is filled in by the defaults of the variable's type and
then converted to the type. Doing so again changes nothing, and every attribute that has a default
of its own is there, at every depth (`defaults_stable`). -/
namespace EarlyConfig

open Hcl (Body Expr)

namespace Variable

theorem decodeType_of_read {file : String} {a : Hcl.Attribute} {r : Ty × Option Defaults}
    (h : TypeExpr.read a.value.value = .ok r) : (decodeType file a).value = r := by
  unfold decodeType
  split
  · rename_i heq
    have hmeans := TypeExpr.says_of_read h
    rw [heq] at hmeans
    cases hmeans
  · rw [h]
    rfl

/-- The default that is recorded for a variable of a type that makes sense, if it fits. -/
theorem decode_of_read {file : String} {b : Body} {a x : Hcl.Attribute} {t : Ty}
    {d : Option Defaults} {v w : Value} (ha : b.attribute? "type" = some a)
    (hread : TypeExpr.read a.value.value = .ok (t, d)) (hx : b.attribute? "default" = some x)
    (hv : x.literal? = some v) (hw : (Defaults.applyTo d v).convert t = .ok w) :
    (decode file b).value.type = t ∧ (decode file b).value.typeDefaults = d ∧
      (decode file b).value.default? = some w := by
  have htype : (decodeTypeOf file b).value = (t, d) := by
    rw [decodeTypeOf, ha]
    exact decodeType_of_read hread
  have hdefault : (decodeDefault file t d x).value = some w := by
    rw [decodeDefault, hv]
    simp only [hw]
    rfl
  simp only [decode, Diagnosed.value_bind, htype, hx, hdefault, Diagnosed.value_pure, and_self]

end Variable

namespace TypeExpr

/-- **Defaults are stable and complete.** Take a type expression in which no object names an
attribute twice, and a value that fits the type once the defaults are filled in. The converted value
is one that filling in leaves alone and that converts to itself, and every attribute with a default
other than null is there and not null, at every depth. It is what a variable of that type records
for that default. -/
theorem defaults_stable {e : Expr} {t : Ty} {d : Option Defaults} (hnames : NamesOnce e)
    (hread : TypeExpr.read e = .ok (t, d)) {v w : Value}
    (hw : (Defaults.applyTo d v).convert t = .ok w) :
    Defaults.applyTo d w = w ∧ w.convert t = .ok w ∧ (∀ c, d = some c → c.Complete w) ∧
      ∀ (file : String) (b : Body) (a x : Hcl.Attribute), b.attribute? "type" = some a →
        a.value.value = e → b.attribute? "default" = some x → x.literal? = some v →
        (Variable.decode file b).value.type = t ∧ (Variable.decode file b).value.typeDefaults = d ∧
          (Variable.decode file b).value.default? = some w := by
  have hmeans := says_of_read hread
  have hstable : Defaults.applyTo d w = w := (hmeans.along hnames).stable v w hw
  refine ⟨hstable, ?_, ?_, ?_⟩
  · exact Value.convert_of_conforms (Value.convert_conforms _ w hw) hmeans.wellFormed
  · rintro c rfl
    exact Defaults.complete_of_stable hstable
  · rintro file b a x ha rfl hx hv
    exact Variable.decode_of_read ha hread hx hv hw

/-- A list of objects with an optional number that has a default. -/
def portsExpr : Expr :=
  .call "list" [.call "object" [.object [(⟨.variable "port", ⟨15, 19⟩⟩,
    ⟨.call "optional" [.variable "number", .number (.int 80)] false, ⟨22, 42⟩⟩)]] false] false

theorem portsExpr_namesOnce : NamesOnce portsExpr := by
  refine .intro (fun entries spread h => ?_) fun e' hlist => ?_
  · simp [portsExpr] at h
  obtain rfl : e' = _ := by simpa [Part, parts, portsExpr] using hlist
  refine .object (by decide) fun entry hentry => ?_
  rw [List.mem_singleton.1 hentry]
  exact .variable "number"

def portsAttribute : Hcl.Attribute :=
  ⟨⟨"type", ⟨0, 4⟩⟩, ⟨portsExpr, ⟨10, 45⟩⟩⟩

/-- A list of one object that says nothing. -/
def portsDefault : Hcl.Attribute :=
  ⟨⟨"default", ⟨46, 53⟩⟩, ⟨.list [⟨.object [], ⟨57, 59⟩⟩], ⟨56, 60⟩⟩⟩

theorem defaults_stable_ports :
    let port : Ty := .object [⟨"port", true, .number⟩]
    let filled : Value := .list [.object [("port", .number (.int 80))]]
    let d : Defaults := ⟨.list port, [], [("", ⟨port, [("port", .number (.int 80))], []⟩)]⟩
    TypeExpr.read portsExpr = .ok (.list port, some d) ∧
      (d.apply (.tuple [.object []])).convert (.list port) = .ok filled ∧
      d.apply filled = filled ∧ filled.convert (.list port) = .ok filled ∧ d.Complete filled ∧
      (Variable.decode "main.tf" [.attr portsAttribute, .attr portsDefault]).value.default? =
        some filled := by
  intro port filled d
  have hread : TypeExpr.read portsExpr = .ok (.list port, some d) := by with_unfolding_all rfl
  have hfilled : (d.apply (.tuple [.object []])).convert (.list port) = .ok filled := by
    with_unfolding_all rfl
  have h := defaults_stable (v := .tuple [.object []]) portsExpr_namesOnce hread hfilled
  have hliteral : portsDefault.literal? = some (.tuple [.object []]) := by with_unfolding_all rfl
  have hvariable := h.2.2.2 "main.tf" [.attr portsAttribute, .attr portsDefault] portsAttribute
    portsDefault rfl rfl rfl hliteral
  exact ⟨hread, hfilled, h.1, h.2.1, h.2.2.1 d rfl, hvariable.2.2⟩

end TypeExpr

end EarlyConfig

import StaticConfig.Proofs.Conversion.Markers
import StaticConfig.Proofs.Evaluation.Preserves
import StaticConfig.Proofs.Filling.Applied
import StaticConfig.Proofs.Filling.Everywhere
import StaticConfig.Proofs.Resolution.Arguments

/-!
What an input variable has in an instance of a module. Its declaration is read from a block, and
one that is read without errors has no null for a default where the variable may not be null. But a
null that is given is replaced by the default only, so a variable without one is null all the same.
The mark of a sensitive variable is put on what comes of the table, so it is missing where the
instance has been given nothing.
-/
namespace StaticConfig

namespace Module

/-- The type that a block of a variable asks for, with the defaults of attributes. -/
def constraintOf (library : Library) (b : Block) : Report Constraint :=
  match b.body.expr? "type" with
  | some e => Constraint.ofExpr library e
  | none => pure ⟨.dynamic, none⟩

end Module

namespace InputVariable

/-- The variable is read from the block, without errors. -/
structure ReadFrom (x : InputVariable) (library : Library) (b : Block) : Prop where
  result : (Module.readVariable library b).result = some x
  clean : (Module.readVariable library b).diags.hasErrors = false

/-- What the variable has of the constraint and of the default in the block. -/
structure Declares (x : InputVariable) (library : Library) (b : Block) (c : Constraint) :
    Prop where
  constraint : (Module.constraintOf library b).result = c
  constraintClean : (Module.constraintOf library b).diags.hasErrors = false
  ty : x.constraint = c.ty
  defaults : x.defaults = c.defaults
  default : (Module.defaultOf library b.body c x.nullable).result = x.default
  defaultClean : (Module.defaultOf library b.body c x.nullable).diags.hasErrors = false

variable {x : InputVariable} {library : Library} {b : Block} {d : Value}

theorem ReadFrom.declares (h : x.ReadFrom library b) : ∃ c, x.Declares library b c := by
  obtain ⟨hresult, hclean⟩ := h
  unfold Module.readVariable at hresult hclean
  rw [Report.bind_eq] at hresult hclean
  cases hname : (Module.nameOf b "variable").result with
  | none =>
    rw [hname] at hresult
    cases hresult
  | some name =>
    rw [hname] at hresult hclean
    simp only [Report.bind_eq, Report.pure_eq] at hresult hclean
    cases htype : b.body.expr? "type" with
    | none =>
      simp only [htype, Diagnostics.hasErrors_append, Bool.or_eq_false_iff] at hresult hclean
      cases hresult
      exact ⟨⟨.dynamic, none⟩, by rw [Module.constraintOf, htype]; rfl,
        by rw [Module.constraintOf, htype]; rfl, rfl, rfl, rfl, hclean.2.2.2.2.2.1⟩
    | some e =>
      simp only [htype, Diagnostics.hasErrors_append, Bool.or_eq_false_iff] at hresult hclean
      cases hresult
      exact ⟨_, by rw [Module.constraintOf, htype],
        by rw [Module.constraintOf, htype]; exact hclean.2.1, rfl, rfl, rfl,
        hclean.2.2.2.2.2.1⟩

/-- A default that is read without errors is the value of the expression, with the defaults of
attributes, converted to the type, and where the variable may not be null it is not null. -/
theorem Declares.of_default {c : Constraint} (h : x.Declares library b c)
    (hd : x.default = some d) :
    ∃ a, b.body.attribute? "default" = some a ∧
      (Eval.constant library a.expr).diags.hasErrors = false ∧
      (Defaults.fill c.defaults (Eval.constant library a.expr).result).convert c.ty = .ok d ∧
      (x.nullable = false → d.isNull = false) := by
  have hresult := h.default.trans hd
  have hclean := h.defaultClean
  unfold Module.defaultOf at hresult hclean
  cases ha : b.body.attribute? "default" with
  | none =>
    rw [ha] at hresult
    cases hresult
  | some a =>
    simp only [ha] at hresult hclean
    by_cases herrors : (Eval.constant library a.expr).diags.hasErrors = true
    · rw [if_pos herrors] at hresult
      cases hresult
    · rw [if_neg herrors] at hresult hclean
      refine ⟨a, rfl, Bool.eq_false_iff.2 herrors, ?_⟩
      split at hresult
      · next v hv =>
        rw [hv] at hclean
        obtain rfl := Option.some.inj hresult
        have hfilled : (Defaults.fill c.defaults (Eval.constant library a.expr).result).convert
            c.ty = .ok v := by
          rw [← hv]
          cases c.defaults <;> rfl
        refine ⟨hfilled, fun hnullable => Bool.eq_false_iff.2 fun hnull => ?_⟩
        simp [hnull, hnullable, Diagnostics.hasErrors, Module.badDefault, Module.problem,
          Diagnostic.errorAt, Diagnostic.isError] at hclean
      · cases hresult

theorem ReadFrom.isNull_default (h : x.ReadFrom library b) (hnullable : x.nullable = false)
    (hd : x.default = some d) : d.isNull = false := by
  obtain ⟨c, hc⟩ := h.declares
  obtain ⟨a, -, -, -, hnull⟩ := hc.of_default hd
  exact hnull hnullable

end InputVariable

/-- A null converts to every type. -/
theorem Value.exists_convert_of_isNull : ∀ {v : Value} (want : Ty), v.isNull = true →
    ∃ r, v.convert want = .ok r
  | .null t, want, _ => by
    unfold convert
    split
    · exact ⟨_, rfl⟩
    · exact ⟨_, rfl⟩
  | .sensitive v, want, h => by
    obtain ⟨r, hr⟩ := exists_convert_of_isNull (v := v) want h
    exact ⟨r.mark, by rw [convert, hr]; rfl⟩

theorem Value.isNull_markIf (marked : Bool) (v : Value) : (v.markIf marked).isNull = v.isNull := by
  cases marked
  · rfl
  · exact isNull_mark v

namespace Evaluator

variable {ev : Evaluator} {m : Module} {name : String} {span : Span} {x : InputVariable}
  {values : Fields Value} {library : Library} {b : Block}

theorem inputVariable_of_table (hm : ev.module "input variable" = .ok m)
    (hx : m.inputs.get? name = some x) (hvalues : ev.table.get? ev.path.text = some values) :
    ev.inputVariable name span =
      .ok ⟨(convertedValue x (givenValue x (values.get? name))).result.markIf x.sensitive,
        (convertedValue x (givenValue x (values.get? name))).diags⟩ := by
  simp only [inputVariable, hm, bind, Except.bind, hx, hvalues]
  rfl

theorem inputVariable_of_no_table (hm : ev.module "input variable" = .ok m)
    (hx : m.inputs.get? name = some x) (hnone : ev.table.get? ev.path.text = none) :
    ev.inputVariable name span = .ok ⟨.unknown x.ty, []⟩ := by
  simp only [inputVariable, hm, bind, Except.bind, hx, hnone]
  rfl

/-- Filling in and converting makes nothing null and no null anything else, and a null is never
reported. -/
theorem isNull_convertedValue (x : InputVariable) (a : Value) :
    (convertedValue x a).result.isNull = a.isNull ∧
      (a.isNull = true → (convertedValue x a).diags = []) := by
  have hfilled : (x.filled a).isNull = a.isNull := by
    unfold InputVariable.filled
    cases x.defaults with
    | none => rfl
    | some d =>
      dsimp only
      split
      · rfl
      · exact Defaults.isNull_apply d a
  cases hc : (x.filled a).convert x.constraint with
  | ok r =>
    rw [convertedValue_of_convert hc]
    exact ⟨(Value.converts_of_convert _ hc).isNull_eq.trans hfilled, fun _ => rfl⟩
  | error e =>
    have hnull : a.isNull = false := by
      refine Bool.eq_false_iff.2 fun hnull => ?_
      obtain ⟨r, hr⟩ := Value.exists_convert_of_isNull x.constraint (hfilled.trans hnull)
      cases hc.symm.trans hr
    rw [(convertedValue_of_error hc).1, hnull]
    exact ⟨rfl, fun h => absurd h Bool.false_ne_true⟩

/-- A variable that may not be null has its default in place of a null. -/
theorem isNull_givenValue_iff (hread : x.ReadFrom library b) (hnullable : x.nullable = false)
    (given : Option Value) : (givenValue x given).isNull = true ↔
      x.default = none ∧ ∃ a, given = some a ∧ a.isNull = true := by
  cases hdefault : x.default with
  | none => cases given <;> simp [givenValue, hdefault, Value.isNull]
  | some d =>
    have hd := hread.isNull_default hnullable hdefault
    cases given with
    | none => simp [givenValue, hdefault, hd]
    | some a =>
      cases ha : a.isNull <;> simp [givenValue, hdefault, hnullable, ha, hd]

/-- A variable that may not be null is null exactly where it is given a null and has no default,
and then there is no diagnostic either. -/
theorem isNull_inputVariable_iff (hm : ev.module "input variable" = .ok m)
    (hx : m.inputs.get? name = some x) (hread : x.ReadFrom library b)
    (hnullable : x.nullable = false) (span : Span) :
    ∃ r, ev.inputVariable name span = .ok r ∧
      (r.result.isNull = true ↔ x.default = none ∧ ∃ values a,
        ev.table.get? ev.path.text = some values ∧ values.get? name = some a ∧
          a.isNull = true) ∧
      (r.result.isNull = true → r.diags = []) := by
  cases hvalues : ev.table.get? ev.path.text with
  | none =>
    refine ⟨_, inputVariable_of_no_table hm hx hvalues, ?_, nofun⟩
    simp [Value.isNull]
  | some values =>
    obtain ⟨hnull, hclean⟩ := isNull_convertedValue x (givenValue x (values.get? name))
    refine ⟨_, inputVariable_of_table hm hx hvalues, ?_, fun h => ?_⟩
    · rw [Value.isNull_markIf, hnull, isNull_givenValue_iff hread hnullable]
      simp
    · rw [Value.isNull_markIf, hnull] at h
      exact hclean h

/-- A declaration of a text that may not be null, without a default. -/
def regionBlock : Block :=
  let argument (name : String) (e : Expr) : String × Attribute :=
    (name, ⟨default, default, name, e⟩)
  ⟨default, default, "variable", ["region"], [], ⟨default,
    [argument "nullable" (.literal default (.bool false)),
      argument "type" (.traversal default "string" [])], []⟩⟩

def region : InputVariable :=
  { (default : InputVariable) with
    name := "region", ty := .string, constraint := .string, nullable := false }

/-- A text that is not shown, without a default. -/
def token : InputVariable :=
  { (default : InputVariable) with
    name := "token", ty := .string, constraint := .string, nullable := true, sensitive := true }

/-- The root of a configuration with the two variables. -/
def rootOfTwo (table : VariableTable) : Evaluator :=
  let m : Module := { Module.empty "." with inputs := [("region", region), ("token", token)] }
  ⟨⟨"default", "", .ok "/"⟩, .root, .ofModule m, table, fun _ _ => none⟩

theorem module_rootOfTwo (table : VariableTable) :
    (rootOfTwo table).module "input variable" = .ok (rootOfTwo table).tree.module := rfl

/-- The region is null where it is given a null, and it is not where it is given nothing. -/
theorem isNull_inputVariable_iff_region :
    (∃ r, (rootOfTwo [("", [("region", .null .dynamic)])]).inputVariable "region" default = .ok r ∧
      r.result.isNull = true ∧ r.diags = []) ∧
    ∃ r, (rootOfTwo [("", [])]).inputVariable "region" default = .ok r ∧
      r.result.isNull = false := by
  have hread : region.ReadFrom (fun _ _ => none) regionBlock := ⟨rfl, rfl⟩
  have hx (table : VariableTable) :
      (rootOfTwo table).tree.module.inputs.get? "region" = some region := rfl
  constructor
  · obtain ⟨r, hr, hiff, hclean⟩ := isNull_inputVariable_iff
      (module_rootOfTwo [("", [("region", .null .dynamic)])]) (hx _) hread rfl default
    have hnull := hiff.2 ⟨rfl, _, _, rfl, rfl, rfl⟩
    exact ⟨r, hr, hnull, hclean hnull⟩
  · obtain ⟨r, hr, hiff, -⟩ := isNull_inputVariable_iff
      (module_rootOfTwo [("", [])]) (hx _) hread rfl default
    refine ⟨r, hr, Bool.eq_false_iff.2 fun hnull => ?_⟩
    obtain ⟨-, values, a, hvalues, ha, -⟩ := hiff.1 hnull
    cases hvalues
    cases ha

/-- So a variable that may not be null, read without errors, is null without any diagnostic. -/
theorem inputVariable_region_null :
    region.ReadFrom (fun _ _ => none) regionBlock ∧ region.nullable = false ∧
      (rootOfTwo [("", [("region", .null .dynamic)])]).inputVariable "region" default =
        .ok ⟨.null .string, []⟩ :=
  ⟨⟨rfl, rfl⟩, rfl, rfl⟩

/-- A sensitive variable is marked exactly where the instance has an entry in the table. Without one
it is unknown, with no mark. -/
theorem isMarked_inputVariable_iff (hm : ev.module "input variable" = .ok m)
    (hx : m.inputs.get? name = some x) (hsensitive : x.sensitive = true) (span : Span) :
    ∃ r, ev.inputVariable name span = .ok r ∧
      (r.result.isMarked = true ↔ (ev.table.get? ev.path.text).isSome = true) ∧
      (ev.table.get? ev.path.text = none → r = ⟨.unknown x.ty, []⟩) := by
  cases hvalues : ev.table.get? ev.path.text with
  | none =>
    refine ⟨_, inputVariable_of_no_table hm hx hvalues, ?_, fun _ => rfl⟩
    simp [Value.isMarked]
  | some values =>
    refine ⟨_, inputVariable_of_table hm hx hvalues, ?_, fun h => by cases h⟩
    rw [hsensitive]
    simp [Value.markIf, Value.isMarked_mark]

/-- The token is marked where the root has an entry, although it is given no token. -/
theorem isMarked_inputVariable_iff_token :
    (∃ r, (rootOfTwo [("", [])]).inputVariable "token" default = .ok r ∧
      r.result.isMarked = true) ∧
    (rootOfTwo []).inputVariable "token" default = .ok ⟨.unknown .string, []⟩ := by
  have hx (table : VariableTable) :
      (rootOfTwo table).tree.module.inputs.get? "token" = some token := rfl
  constructor
  · obtain ⟨r, hr, hiff, -⟩ :=
      isMarked_inputVariable_iff (module_rootOfTwo [("", [])]) (hx _) rfl default
    exact ⟨r, hr, hiff.2 rfl⟩
  · obtain ⟨r, hr, -, hunmarked⟩ :=
      isMarked_inputVariable_iff (module_rootOfTwo []) (hx _) rfl default
    rw [hr, hunmarked rfl]
    rfl

/-- So a sensitive variable has no mark where the instance has been given nothing. -/
theorem inputVariable_token_unmarked :
    token.sensitive = true ∧
      (rootOfTwo []).inputVariable "token" default = .ok ⟨.unknown .string, []⟩ :=
  ⟨rfl, rfl⟩

end Evaluator

/-!
What an input variable has where it is given nothing. Its default has been filled in and converted
to its type when the declaration was read, and it is filled in and converted once more when the
variable is resolved. Where the type has no `dynamic` the second time changes nothing. The default
is the value of an expression, and no such value is marked twice, as long as none is written so.
-/

open Value

namespace InputVariable

variable {x : InputVariable} {library : Library} {b : Block} {c : Constraint} {d : Value}

/-- Where no type is asked for it is `dynamic`, so a variable with another type asks for it. -/
theorem Declares.static (h : x.Declares library b c) (hknown : x.constraint.hasDynamic = false) :
    c.ty.Static ∧ Defaults.Suits c.defaults c.ty := by
  rw [h.ty, ← h.constraint] at hknown
  rw [← h.constraint]
  have hclean := h.constraintClean
  unfold Module.constraintOf at hclean hknown ⊢
  cases htype : b.body.expr? "type" with
  | none =>
    rw [htype] at hknown
    cases hknown
  | some e =>
    rw [htype] at hclean hknown
    obtain ⟨-, hstatic, hsuits, -⟩ := Constraint.of_ofExpr_clean hclean hknown
    exact ⟨hstatic, hsuits⟩

/-- Filled in and converted, a default that was read stays as it is. -/
theorem ReadFrom.convert_filled_default (hread : x.ReadFrom library b)
    (hlib : library.Keeps MarkedOnce) (hb : Parser.BodyWrites MarkedOnce b.body)
    (hknown : x.constraint.hasDynamic = false) (hd : x.default = some d) :
    (x.filled d).convert x.constraint = .ok d := by
  obtain ⟨c, hc⟩ := hread.declares
  obtain ⟨hstatic, hsuits⟩ := hc.static hknown
  obtain ⟨a, ha, hclean, hconvert, -⟩ := hc.of_default hd
  have hnone : Diagnostics.errors (Eval.constant library a.expr).diags = [] := by
    simpa [Diagnostics.hasErrors, Diagnostics.errors, List.filter_eq_nil_iff] using hclean
  have hmarked := Markable.markedOnce.constant hlib (hb.of_attribute? ha) hnone
  have hfixed := (Defaults.completes_of_convert hstatic hsuits hmarked hconvert).fixed hstatic
  have hagain : (Defaults.fill c.defaults d).convert c.ty = .ok d :=
    hfixed.convert hstatic hsuits
  rw [hc.ty, filled, hc.defaults]
  cases hdefaults : c.defaults with
  | none => rwa [hdefaults] at hagain
  | some defaults =>
    dsimp only
    split
    -- A null is not filled in.
    · exact convert_idempotent hstatic hconvert
    · rwa [hdefaults] at hagain

end InputVariable

namespace Evaluator

variable {ev : Evaluator} {m : Module} {name : String} {x : InputVariable} {values : Fields Value}
  {b : Block} {d : Value}

/-- A variable that is given nothing, although the instance has an entry in the table, has its
default as it was read, marked where the variable is sensitive, and nothing is reported: filled in
and converted a second time, the default is what it was. All blocks of files write values that are
marked once, by `Parser.bodyWrites_of_file`. -/
theorem inputVariable_eq_default {ambient : Library.Ambient}
    (hm : ev.module "input variable" = .ok m) (hx : m.inputs.get? name = some x)
    (hvalues : ev.table.get? ev.path.text = some values) (hunset : values.get? name = none)
    (hread : x.ReadFrom (Library.standard ambient) b) (hb : Parser.BodyWrites MarkedOnce b.body)
    (hknown : x.constraint.hasDynamic = false) (hd : x.default = some d) (span : Span) :
    ev.inputVariable name span = .ok ⟨d.markIf x.sensitive, []⟩ ∧
      (x.filled d).convert x.constraint = .ok d := by
  have hagain :=
    hread.convert_filled_default (Markable.markedOnce.keeps_nested _) hb hknown hd
  refine ⟨?_, hagain⟩
  have hgiven : givenValue x none = d := by simp only [givenValue, hd]
  rw [inputVariable_of_table hm hx hvalues, hunset, hgiven, convertedValue_of_convert hagain]

/-- A declaration of services that are not shown, each with a port of its own or another one. -/
def servicesBlock : Block :=
  let here : Span := default
  let argument (name : String) (e : Expr) : String × Attribute := (name, ⟨here, here, name, e⟩)
  let port : Expr := .call here "optional"
    [.traversal here "number" [], .literal here (ofNat 80)] false
  let service : Expr := .call here "object" [.object here [(.name here "port", port)]] false
  ⟨here, here, "variable", ["services"], [], ⟨here,
    [argument "default" (.tuple here [.object here []]),
      argument "sensitive" (.literal here (.bool true)),
      argument "type" (.call here "list" [service] false)], []⟩⟩

theorem bodyWrites_servicesBlock {P : Value → Prop} (H : Hereditary P) :
    Parser.BodyWrites P servicesBlock.body := by
  refine .intro ?_ (List.forall_mem_nil _)
  refine List.forall_mem_cons.2 ⟨?_, List.forall_mem_cons.2 ⟨?_, List.forall_mem_singleton.2 ?_⟩⟩
  · refine Expr.writes_tuple.2 (List.forall_mem_singleton.2 ?_)
    exact Expr.writes_object.2 (List.forall_mem_nil _)
  · exact Expr.writes_literal.2 (H.bool true)
  · refine Expr.writes_call.2 (List.forall_mem_singleton.2 ?_)
    refine Expr.writes_call.2 (List.forall_mem_singleton.2 ?_)
    refine Expr.writes_object.2 (List.forall_mem_singleton.2 ⟨(fun _ h => by cases h), ?_⟩)
    refine Expr.writes_call.2 (List.forall_mem_cons.2 ⟨?_, List.forall_mem_singleton.2 ?_⟩)
    · exact Expr.writes_traversal.2 (List.forall_mem_nil _)
    · exact Expr.writes_literal.2 (H.number _)

/-- One service, with the port of the type. -/
theorem inputVariable_eq_default_services :
    let service : Ty := .object [("port", .number)] ["port"]
    let services : Value := .list service [.object [("port", ofNat 80)]]
    let x : InputVariable :=
      { (default : InputVariable) with
        name := "services", default := some services,
        ty := .list (.plainObject [("port", .number)]), constraint := .list service,
        defaults := some ⟨.list service, [], [("", ⟨service, [("port", ofNat 80)], []⟩)]⟩,
        nullable := true, sensitive := true }
    let ev : Evaluator := ⟨⟨"default", "", .ok "/"⟩, .root,
      .ofModule { Module.empty "." with inputs := [("services", x)] }, [("", [])], fun _ _ => none⟩
    ev.inputVariable "services" default = .ok ⟨.sensitive services, []⟩ := by
  intro service services x ev
  have hread : x.ReadFrom (Library.standard ⟨"", fun _ => ""⟩) servicesBlock := ⟨rfl, rfl⟩
  have hm : ev.module "input variable" = .ok ev.tree.module := rfl
  have hx : ev.tree.module.inputs.get? "services" = some x := rfl
  have hvalues : ev.table.get? ev.path.text = some [] := rfl
  exact (inputVariable_eq_default hm hx hvalues rfl hread
    (bodyWrites_servicesBlock Hereditary.markedOnce) rfl rfl default).1

end Evaluator

end StaticConfig

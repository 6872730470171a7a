import StaticConfig.Proofs.Evaluation.Located

/-!
The functions that an expression calls. What it evaluates to depends on the results of their calls
and on no other function.
-/
namespace StaticConfig

open Eval

namespace Expr

/-- The function that the expression itself calls. -/
def callee? : Expr → Option String
  | call _ name _ _ => some name
  | _ => none

/-- The expression and the parts inside of it call no functions but these. -/
def CallsIn (names : Set String) (e : Expr) : Prop :=
  ∀ p ∈ e.parts, ∀ name ∈ p.callee?, name ∈ names

/-- Where the parts are evaluated does not matter here. -/
theorem CallsIn.inner {names : Set String} {env : Env} {e e' : Expr} (h : e.CallsIn names)
    (hin : Inner [] e env e') : e'.CallsIn names :=
  fun p hp => h p (hin.parts_subset hp)

end Expr

/-- Calls of the functions have the same results. -/
def Setting.AgreeOn (names : Set String) (s s' : Setting) : Prop :=
  ∀ name ∈ names, ∀ vs span, callNamed s name vs span = callNamed s' name vs span

namespace Setting.AgreeOn

variable {names : Set String} {s s' : Setting}

mutual

theorem eval (h : AgreeOn names s s') : ∀ (e : Expr) (env : Env), e.CallsIn names →
    Eval.eval s env e = Eval.eval s' env e
  | .literal _ _, _, _ => by simp only [Eval.eval]
  | .traversal _ _ _, _, _ => by simp only [Eval.eval]
  | .parens _ inner, env, he => by
    simp only [Eval.eval, h.eval inner env (he.inner .parens)]
  | .relative _ source _, env, he => by
    simp only [Eval.eval, h.eval source env (he.inner .related)]
  | .splat _ source _, env, he => by
    simp only [Eval.eval, h.eval source env (he.inner .splatted)]
  | .unary _ _ operand, env, he => by
    simp only [Eval.eval, h.eval operand env (he.inner .operand)]
  | .index _ collection key, env, he => by
    simp only [Eval.eval, h.eval collection env (he.inner .indexed),
      h.eval key env (he.inner .index)]
  | .binary _ _ lhs rhs, env, he => by
    simp only [Eval.eval, h.eval lhs env (he.inner .lhs),
      h.eval rhs env (he.inner .rhs)]
  | .conditional _ cond yes no, env, he => by
    simp only [Eval.eval, h.eval cond env (he.inner .cond),
      h.eval yes env (he.inner .yes), h.eval no env (he.inner .no)]
  | .tuple _ items, env, he => by
    simp only [Eval.eval, h.evalAll items env fun _ hmem => he.inner (.item hmem)]
  | .object _ items, env, he => by
    simp only [Eval.eval, h.evalItems items env [] (fun _ _ hmem => he.inner (.key hmem))
      fun _ _ hmem => he.inner (.value hmem)]
  | .call span name args expand, env, he => by
    have hname : name ∈ names := he _ (Expr.mem_parts_self _) name rfl
    simp only [Eval.eval, h.evalAll args env fun _ hmem => he.inner (.arg hmem),
      h name hname]
  -- A lone interpolation is evaluated differently.
  | .template _ [.interp inner], env, he => by
    simp only [Eval.eval, h.eval inner env (he.inner (.interp List.mem_cons_self))]
  | .template span [], env, he =>
    eval_template_congr nofun nofun (h.evalParts span [] env fun _ hmem => he.inner (.interp hmem))
  | .template span (.text text :: parts), env, he =>
    eval_template_congr nofun nofun (h.evalParts span (.text text :: parts) env
      fun _ hmem => he.inner (.interp hmem))
  | .template span (.interp inner :: part :: parts), env, he =>
    eval_template_congr nofun nofun (h.evalParts span (.interp inner :: part :: parts) env
      fun _ hmem => he.inner (.interp hmem))
  | .forEach span keyVar valueVar collection key value cond group, env, he => by
    refine eval_forEach_congr (h.eval collection env (he.inner .collection)) rfl rfl
      fun pair => ?_
    have hcond := h.evalFilter cond (bindItem keyVar valueVar pair env) fun e heq => by
      subst heq
      exact he.inner (.filter pair)
    have hkey := h.evalKey key (bindItem keyVar valueVar pair env) fun e heq => by
      subst heq
      exact he.inner (.itemKey pair)
    simp only [forEntry, hcond, hkey, h.eval value _ (he.inner (.itemValue pair))]

theorem evalAll (h : AgreeOn names s s') : ∀ (es : List Expr) (env : Env),
    (∀ e ∈ es, e.CallsIn names) → Eval.evalAll s env es = Eval.evalAll s' env es
  | [], _, _ => by simp only [Eval.evalAll]
  | e :: es, env, hes => by
    obtain ⟨he, hes⟩ := List.forall_mem_cons.1 hes
    simp only [Eval.evalAll, h.eval e env he, h.evalAll es env hes]

theorem evalParts (h : AgreeOn names s s') (span : Span) : ∀ (parts : List TemplatePart)
    (env : Env), (∀ e, .interp e ∈ parts → e.CallsIn names) →
      Eval.evalParts s env span parts = Eval.evalParts s' env span parts
  | [], _, _ => by simp only [Eval.evalParts]
  | .text _ :: parts, env, hparts => by
    simp only [Eval.evalParts, h.evalParts span parts env fun e hmem =>
      hparts e (List.mem_cons_of_mem _ hmem)]
  | .interp e :: parts, env, hparts => by
    simp only [Eval.evalParts, h.eval e env (hparts e List.mem_cons_self),
      h.evalParts span parts env fun e hmem => hparts e (List.mem_cons_of_mem _ hmem)]

theorem evalItems (h : AgreeOn names s s') : ∀ (items : List (ObjectKey × Expr)) (env : Env)
    (attrs : Fields Value), (∀ key value, (.expr key, value) ∈ items → key.CallsIn names) →
      (∀ key value, (key, value) ∈ items → value.CallsIn names) →
      Eval.evalItems s env attrs items = Eval.evalItems s' env attrs items
  | [], _, _, _, _ => by simp only [Eval.evalItems]
  | (.name _ _, value) :: items, env, attrs, hkeys, hvalues => by
    have hrest (attrs : Fields Value) := h.evalItems items env attrs
      (fun key value hmem => hkeys key value (List.mem_cons_of_mem _ hmem))
      fun key value hmem => hvalues key value (List.mem_cons_of_mem _ hmem)
    simp only [Eval.evalItems, h.eval value env (hvalues _ value List.mem_cons_self), hrest]
  | (.expr key, value) :: items, env, attrs, hkeys, hvalues => by
    have hrest (attrs : Fields Value) := h.evalItems items env attrs
      (fun key value hmem => hkeys key value (List.mem_cons_of_mem _ hmem))
      fun key value hmem => hvalues key value (List.mem_cons_of_mem _ hmem)
    simp only [Eval.evalItems, h.eval key env (hkeys key value List.mem_cons_self),
      h.eval value env (hvalues _ value List.mem_cons_self), hrest]

theorem evalFilter (h : AgreeOn names s s') : ∀ (cond : Option Expr) (env : Env),
    (∀ e, cond = some e → e.CallsIn names) →
      Eval.evalFilter s env cond = Eval.evalFilter s' env cond
  | none, _, _ => by simp only [Eval.evalFilter]
  | some cond, env, hcond => by simp only [Eval.evalFilter, h.eval cond env (hcond cond rfl)]

theorem evalKey (h : AgreeOn names s s') : ∀ (key : Option Expr) (env : Env),
    (∀ e, key = some e → e.CallsIn names) → Eval.evalKey s env key = Eval.evalKey s' env key
  | none, _, _ => by simp only [Eval.evalKey]
  | some key, env, hkey => by simp only [Eval.evalKey, h.eval key env (hkey key rfl)]

end

end Setting.AgreeOn

end StaticConfig

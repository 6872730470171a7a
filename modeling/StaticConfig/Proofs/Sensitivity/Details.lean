import Mathlib.Data.List.Forall2
import StaticConfig.Builtin.Library
import StaticConfig.Proofs.Evaluation.Located
import StaticConfig.Proofs.Sensitivity.Indistinct

/-!
What the details of diagnostics reveal of marked content. Two evaluations with values that only
differ in what is marked may report diagnostics that only differ in their details. They do so
exactly under the summaries whose details describe values: no description leaves out what is marked.
-/
namespace StaticConfig

open Value Eval

/-- The diagnostics agree in all but their details. -/
structure Diagnostic.Akin (d d' : Diagnostic) : Prop where
  severity : d.severity = d'.severity
  kind : d.kind = d'.kind
  summary : d.summary = d'.summary
  subject : d.subject = d'.subject

/-- Where values only differ in what is marked, diagnostics with the summary that agree in all else
agree in their details. -/
def Setting.Discreet (s : Setting) (summary : String) : Prop :=
  ∀ (e : Expr) (env env' : Env), e.Located →
    (∀ name, Option.Rel Indistinct (env.lookup name) (env'.lookup name)) →
    List.Forall₂ Diagnostic.Akin (eval s env e).diags (eval s env' e).diags →
    List.Forall₂ (fun d d' => d.summary = summary → d.detail = d'.detail)
      (eval s env e).diags (eval s env' e).diags

namespace Setting

variable {s : Setting} {summary : String}

/-- Details that describe no values are the same for all values. -/
theorem discreet_of_not_mem (h : summary ∉ EvalFault.describing) : s.Discreet summary := by
  intro e env env' he _ hakin
  have hsecond := (List.forall₂_and_left _ _).2 ⟨tells_eval e env', hakin.flip⟩
  have hboth := (List.forall₂_and_left _ _).2 ⟨tells_eval e env, hsecond.flip⟩
  refine hboth.imp ?_
  rintro d d' ⟨⟨a, ha, rfl⟩, ⟨b, hb, rfl⟩, hd⟩ hsummary
  have hspan : a.span = b.span := Option.some.inj hd.subject
  have hplain : a.fault.summary ∉ EvalFault.describing := by
    have hsummary : a.fault.summary = summary := hsummary
    rw [hsummary]
    exact h
  have hab : a = b := ha.eq_of_located he hb hspan hd.summary hplain
  rw [hab]

/-- An expression with the one name `x`, and two values whose marked content it reveals by the
error that it reports at a range. -/
structure Leak where
  expr : Expr
  span : Span
  first : Value
  firstFault : EvalFault
  second : Value
  secondFault : EvalFault

namespace Leak

/-- The environment in which the value is marked. -/
def env (v : Value) : Env := [("x", .sensitive v)]

/-- The two errors are what is reported, under one summary and with different details. -/
structure Reveals (s : Setting) (l : Leak) : Prop where
  located : l.expr.Located
  first : (eval s (env l.first) l.expr).diags = [EvalError.diagnostic ⟨l.span, l.firstFault⟩]
  second : (eval s (env l.second) l.expr).diags = [EvalError.diagnostic ⟨l.span, l.secondFault⟩]
  summary : l.firstFault.summary = l.secondFault.summary
  detail : l.firstFault.detail ≠ l.secondFault.detail

theorem indistinct_env (v w : Value) (name : String) :
    Option.Rel Indistinct ((env v).lookup name) ((env w).lookup name) := by
  unfold env
  rw [List.lookup_cons, List.lookup_cons]
  split
  · exact .some .sensitive
  · exact .none

theorem Reveals.akin {l : Leak} (h : l.Reveals s) :
    List.Forall₂ Diagnostic.Akin (eval s (env l.first) l.expr).diags
      (eval s (env l.second) l.expr).diags := by
  rw [h.first, h.second]
  exact .cons ⟨rfl, rfl, h.summary, rfl⟩ .nil

theorem Reveals.not_discreet {l : Leak} (h : l.Reveals s) :
    ¬s.Discreet l.firstFault.summary := by
  intro hdiscreet
  have hdetails := hdiscreet l.expr _ _ h.located (indistinct_env l.first l.second) h.akin
  rw [h.first, h.second] at hdetails
  exact h.detail ((List.forall₂_cons.1 hdetails).1 rfl)

/-- The range of the character with the given index. -/
def cell (n : Nat) : Span := ⟨default, 1, n + 1, n, n + 1⟩

/-- The name `x`, followed by steps. -/
def x (n : Nat) (steps : List Step) : Expr := .traversal (cell n) "x" steps

def constant (n : Nat) (v : Value) : Expr := .literal (cell n) v

/-- The call `parseint(x, 10)`. -/
def unreadable : Leak :=
  ⟨.call (cell 0) "parseint" [x 1 [], constant 2 (.number (.int 10))] false, cell 0,
    .string "a!", .failedCall "parseint" (.badDigits "a!" 10),
    .string "b!", .failedCall "parseint" (.badDigits "b!" 10)⟩

/-- The branches of `true ? x : []`. -/
def mixed : Leak :=
  ⟨.conditional (cell 0) (constant 1 (.bool true)) (x 2 []) (constant 3 (.tuple [])), cell 0,
    .bool true, .mixedBranches .bool (.tuple []), .string "a", .mixedBranches .string (.tuple [])⟩

/-- One leak for each summary whose details describe values. -/
def all : List Leak := [
  -- x.a
  ⟨x 0 [.attr (cell 1) "a"], cell 1, .object [], .noAttribute "a",
    .list .dynamic [], .sequenceAttribute⟩,
  -- x[0]
  ⟨x 0 [.index (cell 1) (.number (.int 0))], cell 1, .tuple [], .noElement,
    .bool true, .notIndexed⟩,
  -- -x
  ⟨.unary (cell 0) .neg (x 1 []), cell 0, .string "a", .wrongOperand .sole (.ofFault .notNumber),
    .tuple [], .wrongOperand .sole (.ofFault (.required .number))⟩,
  -- f(x...)
  ⟨.call (cell 0) "f" [x 1 []] true, cell 1, .nothing, .nullExpansion, .bool true,
    .wrongExpansion⟩,
  unreadable,
  mixed,
  -- [for v in x : v]
  ⟨.forEach (cell 0) none "v" (x 1 []) none (.traversal (cell 2) "v" []) none false, cell 1,
    .bool true, .notIterable .bool, .string "a", .notIterable .string⟩,
  -- [for v in [true] : v if x]
  ⟨.forEach (cell 0) none "v" (constant 1 (.tuple [.bool true])) none
    (.traversal (cell 2) "v" []) (some (x 3 [])) false, cell 3,
    .string "a", .wrongFilter (.ofFault .notBool),
    .tuple [], .wrongFilter (.ofFault (.required .bool))⟩,
  -- { for v in [true] : x => v }
  ⟨.forEach (cell 0) none "v" (constant 1 (.tuple [.bool true])) (some (x 2 []))
    (.traversal (cell 3) "v" []) none false, cell 2,
    .nothing, .nullItemKey, .tuple [], .wrongItemKey .textRequired⟩,
  -- { for v in [true, true] : x => v }
  ⟨.forEach (cell 0) none "v" (constant 1 (.tuple [.bool true, .bool true])) (some (x 2 []))
    (.traversal (cell 3) "v" []) none false, cell 2,
    .string "a", .duplicateItemKey "a", .string "b", .duplicateItemKey "b"⟩]

theorem reveals_unreadable (ambient : Library.Ambient) (pureOnly : Bool) :
    unreadable.Reveals ⟨Library.standard ambient, pureOnly⟩ :=
  ⟨Expr.located_of_nodup (by decide) (by decide), rfl, rfl, rfl, by decide⟩

theorem diags_chooseBranch_of_mixed (yes no : Value) (condSpan span : Span)
    (h : Ty.unify [yes.ty, no.ty] = none) :
    (settle (chooseBranch (.bool true) condSpan span ⟨yes, []⟩ ⟨no, []⟩)).diags =
      [EvalError.diagnostic ⟨span, .mixedBranches yes.ty no.ty⟩] := by
  have hchoose : chooseBranch (.bool true) condSpan span ⟨yes, []⟩ ⟨no, []⟩ =
      (⟨.error ⟨span, .mixedBranches yes.ty no.ty⟩, []⟩ : Report (Except EvalError Value)) := by
    unfold chooseBranch
    dsimp only
    rw [h]
    rfl
  rw [hchoose]
  rfl

theorem reveals_mixed (s : Setting) : mixed.Reveals s where
  located := Expr.located_of_nodup (by decide) (by decide)
  first := by
    refine diags_chooseBranch_of_mixed (.sensitive (.bool true)) (.tuple []) (cell 1) (cell 0) ?_
    rw [Ty.unify]
    rfl
  second := by
    refine diags_chooseBranch_of_mixed (.sensitive (.string "a")) (.tuple []) (cell 1) (cell 0) ?_
    rw [Ty.unify]
    rfl
  summary := rfl
  detail := by decide

theorem reveals_of_mem_all (ambient : Library.Ambient) (pureOnly : Bool) :
    ∀ l ∈ all, l.Reveals ⟨Library.standard ambient, pureOnly⟩ := by
  simp only [all, List.forall_mem_cons]
  refine ⟨?_, ?_, ?_, ?_, reveals_unreadable _ _, reveals_mixed _, ?_, ?_, ?_, ?_,
    List.forall_mem_nil _⟩
  all_goals
    exact ⟨Expr.located_of_nodup (by decide) (by decide), rfl, rfl, rfl, by decide⟩

theorem describing_eq : EvalFault.describing = all.map fun l => l.firstFault.summary := rfl

end Leak

/-- The details of diagnostics keep marked content to themselves under exactly those summaries whose
details describe no values. -/
theorem discreet_iff (ambient : Library.Ambient) (pureOnly : Bool) (summary : String) :
    Discreet ⟨Library.standard ambient, pureOnly⟩ summary ↔ summary ∉ EvalFault.describing := by
  constructor
  · intro hdiscreet hmem
    rw [Leak.describing_eq] at hmem
    obtain ⟨l, hl, rfl⟩ := List.mem_map.1 hmem
    exact (Leak.reveals_of_mem_all ambient pureOnly l hl).not_discreet hdiscreet
  · exact discreet_of_not_mem

/-- Of two marked texts that are no numbers, the details of a failed call quote both. -/
theorem not_discreet_unreadable :
    let s : Setting := ⟨Library.standard ⟨"", fun _ => ""⟩, false⟩
    ¬∀ (e : Expr) (env env' : Env),
      (∀ name, Option.Rel Indistinct (env.lookup name) (env'.lookup name)) →
      List.Forall₂ Diagnostic.Akin (eval s env e).diags (eval s env' e).diags →
      List.Forall₂ (fun d d' => d.detail = d'.detail) (eval s env e).diags
        (eval s env' e).diags := by
  intro s h
  have hreveals : Leak.unreadable.Reveals s := Leak.reveals_unreadable _ _
  have hdetails := h Leak.unreadable.expr _ _ (Leak.indistinct_env _ _) hreveals.akin
  rw [hreveals.first, hreveals.second] at hdetails
  exact hreveals.detail (List.forall₂_cons.1 hdetails).1

end Setting

end StaticConfig

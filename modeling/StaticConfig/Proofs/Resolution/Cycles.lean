import Mathlib.Data.List.Chain
import StaticConfig.Proofs.Resolution.Circular
import StaticConfig.Proofs.Resolution.Declared
import StaticConfig.Proofs.Resolution.InStep

/-!
Walks along a relation that come back to themselves. Every walk that meets an element twice begins
with one, and one starts at an element just where a cycle can be reached from there.
-/
namespace StaticConfig

open Relation

variable {α : Type} {R : α → α → Prop} {a b : α}

/-- A walk that ends with the first element it meets for the second time. -/
structure Lasso (R : α → α → Prop) (walk : List α) (last : α) : Prop where
  chain : (walk ++ [last]).IsChain R
  nodup : walk.Nodup
  mem : last ∈ walk

/-- The start of a walk up to where it first comes back. -/
theorem exists_lasso_prefix {walk : List α} (h : ¬walk.Nodup) (hR : walk.IsChain R) :
    ∃ front last, front ++ [last] <+: walk ∧ Lasso R front last := by
  induction walk using List.reverseRecOn with
  | nil => exact absurd List.nodup_nil h
  | append_singleton walk last ih =>
    by_cases hnodup : walk.Nodup
    · have hmem : last ∈ walk := by
        by_contra hlast
        exact h (by simpa [List.nodup_append, hnodup] using fun x hx =>
          ne_of_mem_of_not_mem hx hlast)
      exact ⟨walk, last, List.prefix_rfl, hR, hnodup, hmem⟩
    · obtain ⟨front, last', hpre, hlasso⟩ := ih hnodup hR.left_of_append
      exact ⟨front, last', hpre.trans (List.prefix_append _ _), hlasso⟩

/-- A walk from `a` comes back somewhere just where a cycle can be reached from `a`. -/
theorem exists_lasso_iff :
    (∃ walk last, walk.head? = some a ∧ Lasso R walk last) ↔
      ∃ b, ReflTransGen R a b ∧ TransGen R b b := by
  constructor
  · rintro ⟨walk, last, hhead, hlasso⟩
    obtain ⟨front, back, rfl⟩ := List.append_of_mem hlasso.mem
    have hchain := hlasso.chain
    rw [List.append_assoc, List.cons_append, List.isChain_split] at hchain
    obtain ⟨hfront, hback⟩ := hchain
    refine ⟨last, ?_, ?_⟩
    · have hreach := List.relationReflTransGen_of_exists_isChain _ hfront (by simp)
      have hstart : (front ++ [last]).head (by simp) = a := by
        rw [List.head_eq_iff_head?_eq_some, ← hhead]
        cases front <;> rfl
      rwa [hstart, List.getLast_append_singleton] at hreach
    · obtain ⟨next, rest, hrest⟩ := List.exists_cons_of_ne_nil (l := back ++ [last]) (by simp)
      rw [hrest, List.isChain_cons_cons] at hback
      have hend : (next :: rest).getLast (by simp) = last := by
        simp only [← hrest, List.getLast_append_singleton]
      exact .head' hback.1 (List.relationReflTransGen_of_exists_isChain_cons rest hback.2 hend)
  · rintro ⟨b, hab, hbb⟩
    obtain ⟨c, hbc, hcb⟩ := TransGen.head'_iff.1 hbb
    obtain ⟨there, hthere, hb⟩ := List.exists_isChain_cons_of_relationReflTransGen hab
    obtain ⟨round, hround, hb'⟩ := List.exists_isChain_cons_of_relationReflTransGen hcb
    have hchain : ((a :: there) ++ (c :: round)).IsChain R := by
      refine List.isChain_append.2 ⟨hthere, hround, fun x hx y hy => ?_⟩
      rw [List.getLast?_eq_getLast_of_ne_nil (by simp), hb, Option.mem_some] at hx
      rw [List.head?_cons, Option.mem_some] at hy
      rwa [← hx, ← hy]
    have hrepeat : ¬((a :: there) ++ (c :: round)).Nodup := by
      intro h
      have hmem : b ∈ a :: there := hb ▸ List.getLast_mem _
      have hmem' : b ∈ c :: round := hb' ▸ List.getLast_mem _
      exact (List.nodup_append.1 h).2.2 b hmem b hmem' rfl
    obtain ⟨walk, last, hpre, hlasso⟩ := exists_lasso_prefix hrepeat hchain
    refine ⟨walk, last, ?_, hlasso⟩
    obtain ⟨first, rest, rfl⟩ := List.exists_cons_of_ne_nil (List.ne_nil_of_mem hlasso.mem)
    rw [List.cons_append, List.cons_append, List.cons_prefix_cons] at hpre
    rw [hpre.1, List.head?_cons]

/-!
Local values that depend on themselves. The references in progress are a walk along the
dependencies of local values, and a reference that comes back to the walk is reported. So the
chains that are reported are the walks that end with the first local value they meet a second
time, and there is such a walk just where a cycle can be reached.
-/

open Relation Resolving

namespace Evaluator

variable {ev : Evaluator} {s : CallStack} {name chain : String} {span : Span}
  {evaluate : Expr → Evaluating (Report Value)}

/-- The expression refers to the local value, which is declared. -/
def RefersTo (ev : Evaluator) (e : Expr) (b : String) : Prop :=
  b ∈ ev.locals.keys ∧ ∃ r ∈ (References.ofExpr [] e).refs, r.subject = .localValue b

/-- The expression of the local value `a` refers to the local value `b`. -/
def DependsOn (ev : Evaluator) (a b : String) : Prop :=
  ∃ l, ev.locals.get? a = some l ∧ ev.RefersTo l.expr b

/-- The names of local values are without dots, as identifiers are. -/
def Plain (ev : Evaluator) : Prop :=
  ∀ name ∈ ev.locals.keys, '.' ∉ name.toList

/-- A configuration that was loaded has local values of such names only. -/
theorem plain_of_load {l : Loader} {r : Report ModuleTree} (h : l.load = .ok r)
    (htree : ev.tree = r.result) : ev.Plain := by
  have hundotted := Loader.undotted_of_load h
  rw [← htree] at hundotted
  rw [Plain, locals]
  cases ht : ev.tree.descendant? ev.path.calls with
  | none =>
    intro name hname
    cases hname
  | some t => exact hundotted _ t ht

/-- A walk that begins with a local value that the expression refers to, and ends with the first
one that it meets for the second time or that is in progress. -/
structure Closes (ev : Evaluator) (p : List String) (e : Expr) (walk : List String)
    (last : String) : Prop where
  starts : ∀ a, (walk ++ [last]).head? = some a → ev.RefersTo e a
  chain : (walk ++ [last]).IsChain ev.DependsOn
  nodup : (p ++ walk).Nodup
  mem : last ∈ p ++ walk

theorem closes_nil {p : List String} {e : Expr} {last : String} :
    ev.Closes p e [] last ↔ p.Nodup ∧ ev.RefersTo e last ∧ last ∈ p := by
  constructor
  · rintro ⟨hstarts, -, hnodup, hmem⟩
    rw [List.append_nil] at hnodup hmem
    exact ⟨hnodup, hstarts last rfl, hmem⟩
  · rintro ⟨hnodup, hlast, hmem⟩
    refine ⟨?_, List.isChain_singleton last, ?_, ?_⟩
    · rintro a ⟨⟩
      exact hlast
    · rwa [List.append_nil]
    · rwa [List.append_nil]

theorem closes_cons {p : List String} {e : Expr} {a : String} {walk : List String}
    {last : String} :
    ev.Closes p e (a :: walk) last ↔
      ev.RefersTo e a ∧ ∃ l, ev.locals.get? a = some l ∧
        ev.Closes (p ++ [a]) l.expr walk last := by
  have hassoc : p ++ [a] ++ walk = p ++ a :: walk := by simp
  constructor
  · rintro ⟨hstarts, hchain, hnodup, hmem⟩
    have ha := hstarts a rfl
    obtain ⟨l, hl⟩ := Fields.exists_get?_of_mem_keys ha.1
    rw [List.cons_append, List.isChain_cons] at hchain
    refine ⟨ha, l, hl, ⟨fun b hb => ?_, hchain.2, by rwa [hassoc], by rwa [hassoc]⟩⟩
    obtain ⟨l', hl', hrefers⟩ := hchain.1 b hb
    rw [hl] at hl'
    cases hl'
    exact hrefers
  · rintro ⟨ha, l, hl, ⟨hstarts, hchain, hnodup, hmem⟩⟩
    rw [hassoc] at hnodup hmem
    refine ⟨?_, ?_, hnodup, hmem⟩
    · rintro b ⟨⟩
      exact ha
    · rw [List.cons_append, List.isChain_cons]
      exact ⟨fun b hb => ⟨l, hl, hstarts b hb⟩, hchain⟩

theorem Closes.not_mem {p : List String} {e : Expr} {a : String} {walk : List String}
    {last : String} (h : ev.Closes p e (a :: walk) last) : a ∉ p :=
  fun hmem => (List.nodup_append.1 h.nodup).2.2 a hmem a List.mem_cons_self rfl

/-- The texts of references to local values. -/
def localNames (names : List String) : List String :=
  names.map fun a => (Subject.localValue a).text

theorem localNames_append {p : List String} {a : String} :
    localNames (p ++ [a]) = localNames p ++ [(Subject.localValue a).text] := by
  rw [localNames, List.map_append, List.map_singleton, localNames]

theorem isActive_iff {p : List String} (hstep : s.InStep) (hs : s.chain = localNames p) :
    s.isActive ⟨.localValue name, span⟩ = true ↔ name ∈ p := by
  rw [hstep.isActive_iff, hs]
  constructor
  · intro h
    obtain ⟨a, ha, htext⟩ := List.mem_map.1 h
    rwa [← Subject.text_localValue_injective htext]
  · exact fun h => List.mem_map.2 ⟨name, h, rfl⟩

theorem LooksUp.refersTo {e : Expr} {a : String} (h : LooksUp e a span)
    (ha : a ∈ ev.locals.keys) : ev.RefersTo e a :=
  ⟨ha, _, Scope.mem_of_mem_distinctFrom h, rfl⟩

/-- A declared local value that the expression refers to is looked up. -/
theorem RefersTo.looksUp (hplain : ev.Plain) {e : Expr} {a : String} (h : ev.RefersTo e a) :
    ∃ span, LooksUp e a span := by
  obtain ⟨ha, r, hr, hsubject⟩ := h
  obtain ⟨r', hr', htext⟩ := Scope.exists_mem_distinctFrom hr [] List.not_mem_nil
  have hnamed := (References.proper_ofExpr [] e).named r' (Scope.mem_of_mem_distinctFrom hr')
  rw [hsubject] at htext
  have hsubject' := hnamed.eq_localValue (hplain a ha) htext
  obtain ⟨subject, span⟩ := r'
  cases hsubject'
  exact ⟨span, hr'⟩

theorem coincideEntered_self {fuel : Nat} (h : (ev.idle s).length ≤ fuel) :
    ev.CoincideEntered s (fun e => ev.evalWithin fuel e .dynamic)
      (fun e => ev.evalWithin fuel e .dynamic) := by
  intro name span l hl ha
  have hlt := length_idle_entered (Fields.mem_keys_of_get? hl) ha
  have hroom : (ev.idle (entered s name span)).length < fuel := by omega
  have hsame := coincide_evalWithin fuel _ hroom le_rfl l.expr .dynamic
  exact ⟨hsame.left, hsame.left, hsame.fault⟩

/-- The chains that are reported begin with what is in progress and go on until they close. -/
theorem circular_evalWithin (chain : String) (hplain : ev.Plain) (fuel : Nat) :
    ∀ {s : CallStack} {p : List String}
    {e : Expr} {want : Ty} {out : Report Value}, s.InStep → s.chain = localNames p → p.Nodup →
      (ev.idle s).length < fuel → (ev.evalWithin fuel e want).outcome s = .ok out →
        (out.diags.Circular chain ↔ ∃ walk last, ev.Closes p e walk last ∧
          chain = CallStack.joined (localNames (p ++ walk ++ [last]))) := by
  induction fuel with
  | zero => exact fun _ _ _ hfuel => absurd hfuel (Nat.not_lt_zero _)
  | succ fuel ih =>
    intro s p e want out hstep hs hp hfuel hout
    have hentered := coincideEntered_self (Nat.lt_succ_iff.1 hfuel)
    obtain ⟨hfound, hcircular⟩ := circular_eval hentered hout
    -- A local value that is not in progress prolongs the walk.
    have inner {a : String} {span : Span} {l : LocalValue} {found : Report Value}
        (hl : ev.locals.get? a = some l) (ha : a ∉ p)
        (hlookup : (ev.localValue (fun e => ev.evalWithin fuel e .dynamic) a span).outcome s =
          .ok found) :
        found.diags.Circular chain ↔ ∃ walk last, ev.Closes (p ++ [a]) l.expr walk last ∧
          chain = CallStack.joined (localNames (p ++ [a] ++ walk ++ [last])) := by
      have hidle : s.isActive ⟨.localValue a, span⟩ = false := by
        rwa [← Bool.not_eq_true, isActive_iff hstep hs]
      have hlt := length_idle_entered (Fields.mem_keys_of_get? hl) hidle
      refine ih (s := entered s a span) (hstep.enter hidle) ?_ ?_ (by omega)
        (outcome_of_idle hentered hlookup hl hidle)
      · rw [chain_entered, hs, localNames_append]
      · exact (List.perm_append_singleton a p).nodup_iff.2 (List.nodup_cons.2 ⟨ha, hp⟩)
    rw [hcircular]
    constructor
    · rintro ⟨a, span, found, hlooks, hlookup, hchain⟩
      cases hl : ev.locals.get? a with
      | none => exact absurd hchain (not_circular_of_undeclared hentered hlookup hl)
      | some l =>
        have hrefers := hlooks.refersTo (Fields.mem_keys_of_get? hl)
        by_cases ha : a ∈ p
        · rw [circular_of_active hentered hlookup hl ((isActive_iff hstep hs).2 ha), hs] at hchain
          refine ⟨[], a, closes_nil.2 ⟨hp, hrefers, ha⟩, ?_⟩
          rw [hchain, List.append_nil, localNames_append]
        · obtain ⟨walk, last, hcloses, hchain⟩ := (inner hl ha hlookup).1 hchain
          refine ⟨a :: walk, last, closes_cons.2 ⟨hrefers, l, hl, hcloses⟩, ?_⟩
          rw [hchain, List.append_cons p a walk]
    · rintro ⟨walk, last, hcloses, hchain⟩
      cases walk with
      | nil =>
        obtain ⟨-, hrefers, hlast⟩ := closes_nil.1 hcloses
        obtain ⟨l, hl⟩ := Fields.exists_get?_of_mem_keys hrefers.1
        obtain ⟨span, hlooks⟩ := hrefers.looksUp hplain
        obtain ⟨found, hlookup⟩ := hfound _ _ hlooks
        refine ⟨last, span, found, hlooks, hlookup, ?_⟩
        rw [circular_of_active hentered hlookup hl ((isActive_iff hstep hs).2 hlast), hs]
        rw [hchain, List.append_nil, localNames_append]
      | cons a walk =>
        obtain ⟨hrefers, l, hl, hinner⟩ := closes_cons.1 hcloses
        obtain ⟨span, hlooks⟩ := hrefers.looksUp hplain
        obtain ⟨found, hlookup⟩ := hfound _ _ hlooks
        refine ⟨a, span, found, hlooks, hlookup, ?_⟩
        rw [inner hl hcloses.not_mem hlookup]
        refine ⟨walk, last, hinner, ?_⟩
        rw [hchain, List.append_cons p a walk]

/-- A cycle of dependencies can be reached from the declared local values that the expression
refers to. -/
def ReachesCycle (ev : Evaluator) (e : Expr) : Prop :=
  ∃ a b, ev.RefersTo e a ∧ ReflTransGen ev.DependsOn a b ∧ TransGen ev.DependsOn b b

theorem closes_empty_iff {e : Expr} {walk : List String} {last : String} :
    ev.Closes [] e walk last ↔
      (∃ a, walk.head? = some a ∧ ev.RefersTo e a) ∧ Lasso ev.DependsOn walk last := by
  constructor
  · rintro ⟨hstarts, hchain, hnodup, hmem⟩
    rw [List.nil_append] at hnodup hmem
    cases walk with
    | nil => cases hmem
    | cons a walk => exact ⟨⟨a, rfl, hstarts a rfl⟩, hchain, hnodup, hmem⟩
  · rintro ⟨⟨a, hhead, hrefers⟩, hlasso⟩
    refine ⟨fun b hb => ?_, hlasso.chain, hlasso.nodup, hlasso.mem⟩
    rw [List.head?_append, hhead] at hb
    cases hb
    exact hrefers

/-- An evaluation that starts with no reference in progress reports the chain as circular. -/
def ReportsCircular (ev : Evaluator) (e : Expr) (want : Ty) (chain : String) : Prop :=
  ∃ out s, (ev.eval e want).run.run .empty = (.ok out, s) ∧ out.diags.Circular chain

theorem reportsCircular_iff (hplain : ev.Plain) (e : Expr) (want : Ty) (chain : String) :
    ev.ReportsCircular e want chain ↔ ∃ walk last, ev.Closes [] e walk last ∧
      chain = CallStack.joined (localNames (walk ++ [last])) := by
  have hidle := length_idle_le ev .empty
  have hlimit := chainLimit_eq ev
  have heval := coincide_eval ev .empty e want
  cases hout : (ev.eval e want).outcome .empty with
  | ok out =>
    have hchains := circular_evalWithin chain hplain ev.chainLimit (s := .empty) (p := [])
      CallStack.inStep_empty rfl List.nodup_nil (by omega) hout
    simp only [List.nil_append] at hchains
    rw [← hchains]
    constructor
    · rintro ⟨out', s, hrun, hcircular⟩
      rw [outcome_eq_of_run hrun] at hout
      cases hout
      exact hcircular
    · exact fun hcircular => ⟨out, .empty, by rw [heval.left, hout], hcircular⟩
  | error fault =>
    -- Only an instance without a configuration fails, and it has no local values to refer to.
    have hlocals := locals_of_unconfigured (heval.fault fault hout)
    constructor
    · rintro ⟨out, s, hrun, -⟩
      rw [outcome_eq_of_run hrun] at hout
      cases hout
    · rintro ⟨walk, last, hcloses, -⟩
      obtain ⟨⟨a, -, hrefers⟩, -⟩ := closes_empty_iff.1 hcloses
      have hmem := hrefers.1
      rw [hlocals] at hmem
      cases hmem

/-- Evaluation reports a circular reference if and only if a cycle of dependencies can be reached
from the local values that the expression refers to. The chains reported are the walks along
dependencies that begin at such a local value and end with the first one they meet for the second
time. -/
theorem circular_eval_iff (ev : Evaluator) (hplain : ev.Plain) (e : Expr) (want : Ty) :
    ((∃ chain, ev.ReportsCircular e want chain) ↔ ev.ReachesCycle e) ∧
      ∀ chain, ev.ReportsCircular e want chain ↔ ∃ walk last,
        ((∃ a, walk.head? = some a ∧ ev.RefersTo e a) ∧ Lasso ev.DependsOn walk last) ∧
          chain = CallStack.joined (localNames (walk ++ [last])) := by
  have hchains (chain : String) := reportsCircular_iff hplain e want chain
  simp only [closes_empty_iff] at hchains
  refine ⟨?_, hchains⟩
  constructor
  · rintro ⟨chain, hchain⟩
    obtain ⟨walk, last, ⟨⟨a, hhead, hrefers⟩, hlasso⟩, -⟩ := (hchains chain).1 hchain
    obtain ⟨b, hab, hbb⟩ := exists_lasso_iff.1 ⟨walk, last, hhead, hlasso⟩
    exact ⟨a, b, hrefers, hab, hbb⟩
  · rintro ⟨a, b, hrefers, hab, hbb⟩
    obtain ⟨walk, last, hhead, hlasso⟩ := exists_lasso_iff.2 ⟨b, hab, hbb⟩
    exact ⟨_, (hchains _).2 ⟨walk, last, ⟨⟨a, hhead, hrefers⟩, hlasso⟩, rfl⟩⟩

/-- A module that has only local values, each of which stands for another one. -/
def ofAliases (aliases : List (String × String)) : Evaluator where
  session := ⟨"default", "", .ok "/"⟩
  path := ⟨[]⟩
  tree :=
    let aliased (a : String × String) : String × LocalValue :=
      (a.1, ⟨a.1, .traversal default "local" [.attr default a.2], default⟩)
    .ofModule { Module.empty "." with locals := aliases.map aliased }
  table := []
  library := fun _ _ => none

/-- Two local values that refer to each other, and a third one that refers to them. -/
theorem circular_eval_iff_aliases :
    let ev := ofAliases [("a", "b"), ("b", "c"), ("c", "b")]
    let e : Expr := .traversal default "local" [.attr default "a"]
    let chain := "local.a -> local.b -> local.c -> local.b"
    ev.Plain ∧
      (ev.eval e .dynamic).run.run .empty =
        (.ok ⟨.unknown .dynamic,
          [.errorAt (.circularReference chain) "circular reference found" chain default]⟩, .empty) ∧
      ev.ReachesCycle e := by
  intro ev e chain
  have hplain : ev.Plain := by
    unfold Plain
    decide
  have hrun : (ev.eval e .dynamic).run.run .empty =
      (.ok ⟨.unknown .dynamic,
        [.errorAt (.circularReference chain) "circular reference found" chain default]⟩, .empty) :=
    rfl
  refine ⟨hplain, hrun, ?_⟩
  have hreports : ev.ReportsCircular e .dynamic chain :=
    ⟨_, _, hrun, _, List.mem_cons_self, rfl⟩
  exact (circular_eval_iff ev hplain e .dynamic).1.1 ⟨chain, hreports⟩

end Evaluator

end StaticConfig

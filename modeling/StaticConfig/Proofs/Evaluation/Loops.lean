import StaticConfig.Proofs.Evaluation.Tied

/-!
Two runs of a for expression. A round of one run may skip an item that the other keeps, but only
where a condition or key may be anything, and then so may the whole result: what is unknown in
one round leaves the collection unknown, and a mark stays for the rest of the loop.
-/
namespace StaticConfig.Coupling

open Value Eval

variable {C : Coupling} {s : Setting} {F : Fragment}

section Rounds

variable {keyVar : Option String} {valueVar : String} {key cond : Option Expr} {value : Expr}

/-- The item or its being skipped is known. -/
def isDecided : Item → Bool
  | .unknown => false
  | _ => true

inductive ItemRel (C : Coupling) : Item → Item → Prop
  | skip : ItemRel C .skip .skip
  | unknown : ItemRel C .unknown .unknown
  | keep {key : Option String} {v w : Value} :
      C.Coupled v w → ItemRel C (.keep key v) (.keep key w)

def RoundOutcome (C : Coupling) (x y : Item × Bool) : Prop :=
  C.Free (isDecided x.1) x.2 y.2 ∨ x.2 = false ∧ y.2 = false ∧ C.ItemRel x.1 y.1

theorem Envs.bindItem {env env' : Env} (henv : C.Envs env env') {e e' : Value × Value}
    (he : Paired C.Coupled e e') (keyVar : Option String) (valueVar : String) :
    C.Envs (bindItem keyVar valueVar e env) (bindItem keyVar valueVar e' env') := by
  have push {env env' : Env} (henv : C.Envs env env') (name : String) {a b : Value}
      (hab : C.Coupled a b) : C.Envs ((name, a) :: env) ((name, b) :: env') := by
    intro x
    simp only [List.lookup_cons]
    split
    · exact .some hab
    · exact henv x
  cases keyVar with
  | none => exact push henv valueVar he.2
  | some k => exact push (push henv k he.1) valueVar he.2

theorem forEntry_outcome {env env' : Env} (henv : C.Envs env env') (hcond : C.TiedFilter s cond)
    (hkey : C.TiedKey s key) (hvalue : C.Tied s value) {e e' : Value × Value}
    (he : Paired C.Coupled e e') {x y : Item × Bool}
    (hx : Gives (forEntry s env keyVar valueVar key value cond e) x)
    (hy : Gives (forEntry s env' keyVar valueVar key value cond e') y) : C.RoundOutcome x y := by
  have hbound := henv.bindItem he keyVar valueVar
  obtain ⟨d, m, hd, hmx, hopen, hskip, hkeep⟩ := gives_forEntry hx
  obtain ⟨d', m', hd', hmy, hopen', hskip', hkeep'⟩ := gives_forEntry hy
  rcases hcond _ _ _ _ hbound hd hd' with hfree | ⟨hm, hm', hdd⟩
  · refine .inl (hfree.weaken (fun h => ?_) hmx hmy)
    cases d with
    | none =>
      rw [hopen rfl]
      rfl
    | some b => cases h
  simp only at hm hm' hdd
  subst hm hm'
  cases hdd with
  | none =>
    rw [hopen rfl, hopen' rfl]
    exact .inr ⟨rfl, rfl, .unknown⟩
  | some hdd =>
    cases hdd
    rename_i b
    cases b with
    | false =>
      rw [hskip rfl, hskip' rfl]
      exact .inr ⟨rfl, rfl, .skip⟩
    | true =>
      obtain ⟨t, n, ht, hnx, hopen, hkeep⟩ := hkeep rfl
      obtain ⟨t', n', ht', hny, hopen', hkeep'⟩ := hkeep' rfl
      rcases hkey _ _ _ _ hbound ht ht' with hfree | ⟨hn, hn', htt⟩
      · refine .inl (hfree.weaken (fun h => ?_) hnx hny)
        cases t with
        | none =>
          rw [hopen rfl]
          rfl
        | some k => cases h
      simp only at hn hn' htt
      subst hn hn'
      cases htt with
      | none =>
        rw [hopen rfl, hopen' rfl]
        exact .inr ⟨rfl, rfl, .unknown⟩
      | some hkk =>
        cases hkk
        obtain ⟨v, hv, rfl⟩ := hkeep _ rfl
        obtain ⟨w, hw, rfl⟩ := hkeep' _ rfl
        exact .inr ⟨rfl, rfl, .keep (hvalue _ _ v w hbound hv hw)⟩

end Rounds

section Gather

variable {unique : Bool} {keySpan : Span} {run run' : Value × Value → Eval (Item × Bool)}

/-- A mark does not get lost in a loop. -/
theorem gather_marked {es : List (Value × Value)} {kept : List (Option String × Value)}
    {x : Option (List (Option String × Value)) × Bool}
    (h : Gives (gather unique keySpan run kept true es) x) : x.2 = true := by
  induction es generalizing kept with
  | nil =>
    cases h
    rfl
  | cons e es ih =>
    obtain ⟨item, m, _, hopen, hskip, hkeep⟩ := gives_gather_cons h
    simp only [Bool.true_or] at hopen hskip hkeep
    cases item with
    | skip => exact ih (hskip rfl)
    | unknown => rw [hopen rfl]
    | keep key v => exact ih (hkeep key v rfl)

def KeptRel (C : Coupling) (a b : Option String × Value) : Prop :=
  a.1 = b.1 ∧ C.Coupled a.2 b.2

theorem keptRel_append {kept kept' : List (Option String × Value)} {key : Option String}
    {v w : Value} (h : List.Forall₂ C.KeptRel kept kept') (hvw : C.Coupled v w) :
    List.Forall₂ C.KeptRel (kept ++ [(key, v)]) (kept' ++ [(key, w)]) :=
  List.rel_append h (.cons ⟨rfl, hvw⟩ .nil)

theorem gather_outcome
    (hrun : ∀ e e' x y, Paired C.Coupled e e' → Gives (run e) x → Gives (run' e') y →
      C.RoundOutcome x y)
    {es es' : List (Value × Value)} (h : List.Forall₂ (Paired C.Coupled) es es')
    {kept kept' : List (Option String × Value)} (hkept : List.Forall₂ C.KeptRel kept kept')
    {x y : Option (List (Option String × Value)) × Bool}
    (hx : Gives (gather unique keySpan run kept false es) x)
    (hy : Gives (gather unique keySpan run' kept' false es') y) :
    C.Outcome (List.Forall₂ C.KeptRel) x y := by
  induction h generalizing kept kept' with
  | nil =>
    cases hx
    cases hy
    exact .inr ⟨rfl, rfl, .some hkept⟩
  | cons he _ ih =>
    obtain ⟨item, m, hi, hopen, hskip, hkeep⟩ := gives_gather_cons hx
    obtain ⟨item', m', hi', hopen', hskip', hkeep'⟩ := gives_gather_cons hy
    simp only [Bool.false_or] at hopen hskip hkeep hopen' hskip' hkeep'
    have marked {run : Value × Value → Eval (Item × Bool)} {kept : List (Option String × Value)}
        {es : List (Value × Value)} {item : Item} {m : Bool}
        {x : Option (List (Option String × Value)) × Bool}
        (hopen : item = .unknown → x = (none, m))
        (hskip : item = .skip → Gives (gather unique keySpan run kept m es) x)
        (hkeep : ∀ key v, item = .keep key v →
          Gives (gather unique keySpan run (kept ++ [(key, v)]) m es) x)
        (hm : m = true) : x.2 = true := by
      subst hm
      cases item with
      | skip => exact gather_marked (hskip rfl)
      | unknown => rw [hopen rfl]
      | keep key v => exact gather_marked (hkeep key v rfl)
    rcases hrun _ _ _ _ he hi hi' with hfree | ⟨hm, hm', hitem⟩
    · refine .inl (hfree.weaken (fun h => ?_) (marked hopen hskip hkeep)
        (marked hopen' hskip' hkeep'))
      cases item with
      | unknown =>
        rw [hopen rfl]
        rfl
      | _ => cases h
    simp only at hm hm' hitem
    subst hm hm'
    cases hitem with
    | skip => exact ih hkept (hskip rfl) (hskip' rfl)
    | unknown =>
      rw [hopen rfl, hopen' rfl]
      exact .inr ⟨rfl, rfl, .none⟩
    | keep hvw =>
      exact ih (keptRel_append hkept hvw) (hkeep _ _ rfl) (hkeep' _ _ rfl)

end Gather

namespace Sound

theorem coupled_tuple (S : C.Sound s F) {vs ws : List Value}
    (h : List.Forall₂ C.Coupled vs ws) : C.Coupled (.tuple vs) (.tuple ws) := by
  refine ⟨S.tuple h, fun hu => ?_, fun hu => ?_⟩
  · induction h with
    | nil => rfl
    | cons hvw _ ih => exact Bool.or_eq_false_iff.2 ⟨hvw.2.1 hu, ih⟩
  · induction h with
    | nil => rfl
    | cons hvw _ ih => exact Bool.or_eq_false_iff.2 ⟨hvw.2.2 hu, ih⟩

theorem intoGroup {key : String} {v w : Value} {as bs : Fields (List Value)}
    (h : Fields.Related (List.Forall₂ C.Coupled) as bs) (hvw : C.Coupled v w) :
    Fields.Related (List.Forall₂ C.Coupled) (intoGroup key v as) (intoGroup key w bs) := by
  refine h.insert key (List.rel_append ?_ (.cons hvw .nil))
  have hkey := h.get? key
  generalize Fields.get? key as = x at hkey ⊢
  generalize Fields.get? key bs = y at hkey ⊢
  cases hkey with
  | none => exact .nil
  | some h => exact h

theorem foldl_intoGroup {new new' : Fields Value} (hnew : Fields.Related C.Coupled new new')
    {as bs : Fields (List Value)} (h : Fields.Related (List.Forall₂ C.Coupled) as bs) :
    Fields.Related (List.Forall₂ C.Coupled)
      (new.foldl (fun acc e => Eval.intoGroup e.1 e.2 acc) as)
      (new'.foldl (fun acc e => Eval.intoGroup e.1 e.2 acc) bs) := by
  induction hnew generalizing as bs with
  | nil => exact h
  | cons hvw _ ih => exact ih (intoGroup h hvw)

theorem assemble (S : C.Sound s F) {kept kept' : List (Option String × Value)}
    (h : List.Forall₂ C.KeptRel kept kept') (keyed group : Bool) :
    C.rel (assemble keyed group kept) (assemble keyed group kept') := by
  cases keyed with
  | false =>
    refine S.tuple ?_
    induction h with
    | nil => exact .nil
    | cons hab _ ih => exact .cons hab.2 ih
  | true =>
    have hnamed : Fields.Related C.Coupled (kept.map fun e => (e.1.getD "", e.2))
        (kept'.map fun e => (e.1.getD "", e.2)) := by
      induction h with
      | nil => exact .nil
      | @cons a b as bs hab _ ih =>
        obtain ⟨k, v⟩ := a
        obtain ⟨k', w⟩ := b
        obtain ⟨hk, hvw⟩ := hab
        cases hk
        exact .cons hvw ih
    cases group with
    | false => exact S.object hnamed.ofList
    | true =>
      have hgroups := foldl_intoGroup hnamed .nil
      exact S.object (hgroups.mapValues fun _ _ => S.coupled_tuple)

theorem tied_forEach (S : C.Sound s F) {span : Span} {keyVar : Option String} {valueVar : String}
    {collection value : Expr} {key cond : Option Expr} {group : Bool}
    (he : (Expr.forEach span keyVar valueVar collection key value cond group).Within F)
    (hc : C.Tied s collection) (hkey : C.TiedKey s key) (hvalue : C.Tied s value)
    (hcond : C.TiedFilter s cond) :
    C.Tied s (.forEach span keyVar valueVar collection key value cond group) := by
  refine S.tied he fun env env' v w henv hv hw => ?_
  obtain ⟨a, ha, hv⟩ := eval_forEach_of_clean hv
  obtain ⟨b, hb, hw⟩ := eval_forEach_of_clean hw
  rcases S.view (hc env env' a b henv ha hb) with (⟨hu, hk⟩ | ⟨hm, hma, hmb⟩) | halike
  · obtain ⟨t, rfl⟩ := eq_unknown hk ((hc env env' a b henv ha hb).2.1 (S.unmarked hu))
    rcases hv with ⟨_, _, rfl⟩ | ⟨_, _, _, hpairs, _⟩
    · exact S.of_free (.inl ⟨hu, rfl⟩)
    · cases hpairs
  · have marked {run : Value × Value → Eval (Item × Bool)} {c v : Value} (hm : c.isMarked = true)
        (h : (∃ t, c.unmarked = .unknown t ∧ v = markIf c.isMarked .dynamic) ∨
          ∃ pairs kept m, c.unmarked.iterated? = some pairs ∧
            Gives (gather (!group) ((key.map Expr.span).getD span) run [] c.isMarked pairs)
              (kept, m) ∧
            v = markIf m (kept.elim .dynamic (Eval.assemble key.isSome group))) :
        v.isMarked = true := by
      rw [hm] at h
      rcases h with ⟨_, _, rfl⟩ | ⟨_, _, m, _, hkept, rfl⟩
      · rfl
      · have hm : m = true := gather_marked hkept
        rw [isMarked_markIf, hm, Bool.true_or]
    exact S.of_free (.inr ⟨hm, marked hma hv, marked hmb hw⟩)
  rw [halike.isMarked_left, unmarked_of_isMarked_eq_false halike.isMarked_left] at hv
  rw [halike.isMarked_right, unmarked_of_isMarked_eq_false halike.isMarked_right] at hw
  rcases hv with ⟨_, rfl, rfl⟩ | ⟨pairs, kept, m, hpairs, hkept, rfl⟩
  · cases halike
    rcases hw with ⟨_, _, rfl⟩ | ⟨_, _, _, hpairs, _⟩
    · exact S.leaf rfl
    · cases hpairs
  rcases hw with ⟨_, rfl, rfl⟩ | ⟨pairs', kept', m', hpairs', hkept', rfl⟩
  · cases halike
    cases hpairs
  have hpp := halike.iterated? fun _ => S.coupled_leaf
  rw [hpairs, hpairs'] at hpp
  cases hpp with
  | some hpp =>
    refine S.rel_of_outcome ?_ fun _ _ h => S.assemble h _ _
    exact gather_outcome (fun e e' x y he => forEntry_outcome henv hcond hkey hvalue he) hpp .nil
      hkept hkept'

end Sound

end StaticConfig.Coupling

/-!
Two runs of one expression. When a coupling is sound and relates the values of all names, it
relates the values of the expression in both runs, if these report nothing.
-/
namespace StaticConfig.Coupling.Sound

open Value Eval

variable {C : Coupling} {s : Setting} {F : Fragment}

mutual

theorem eval_tied (S : C.Sound s F) : ∀ e : Expr, e.Within F → C.Tied s e
  | .literal _ _, he => S.tied_literal he
  | .parens _ e, he => tied_parens (eval_tied S e he)
  | .template _ parts, he =>
    S.tied_template he (lone_tied S parts he) (parts_tied S parts he)
  | .traversal _ _ _, he => S.tied_traversal he
  | .relative _ source _, he => S.tied_relative he.2 (eval_tied S source he.1)
  | .index _ collection key, he =>
    S.tied_index (eval_tied S collection he.1) (eval_tied S key he.2)
  | .splat _ source _, he => S.tied_splat he (eval_tied S source he.1)
  | .tuple _ items, he => S.tied_tuple he (all_tied S items he)
  | .object _ items, he => S.tied_object he (items_tied S items he)
  | .call _ _ args _, he => S.tied_call he (all_tied S args he.2)
  | .unary _ _ operand, he => S.tied_unary he (eval_tied S operand he)
  | .binary _ _ lhs rhs, he => S.tied_binary he (eval_tied S lhs he.1) (eval_tied S rhs he.2)
  | .conditional _ _ _ _, he => he.elim
  | .forEach _ _ _ collection key value cond _, he =>
    S.tied_forEach he (eval_tied S collection he.1) (key_tied S key he.2.1)
      (eval_tied S value he.2.2.1) (filter_tied S cond he.2.2.2)

theorem all_tied (S : C.Sound s F) : ∀ es : List Expr, Expr.AllWithin F es → C.TiedAll s es
  | [], _ => tiedAll_nil
  | e :: es, he => tiedAll_cons (eval_tied S e he.1) (all_tied S es he.2)

theorem parts_tied (S : C.Sound s F) :
    ∀ parts : List TemplatePart, Expr.PartsWithin F parts → C.TiedParts s parts
  | [], _ => tiedParts_nil
  | .text _ :: parts, he => tiedParts_text (parts_tied S parts he)
  | .interp e :: parts, he => S.tiedParts_interp (eval_tied S e he.1) (parts_tied S parts he.2)

theorem lone_tied (S : C.Sound s F) : ∀ parts : List TemplatePart, Expr.PartsWithin F parts →
    ∀ e, parts = [.interp e] → C.Tied s e
  | [.interp e], he, _, rfl => eval_tied S e he.1

theorem items_tied (S : C.Sound s F) :
    ∀ items : List (ObjectKey × Expr), Expr.ItemsWithin F items → C.TiedItems s items
  | [], _ => tiedItems_nil
  | (.name _ _, value) :: items, he =>
    tiedItems_name (eval_tied S value he.1) (items_tied S items he.2)
  | (.expr key, value) :: items, he =>
    S.tiedItems_expr (eval_tied S key he.1) (eval_tied S value he.2.1) (items_tied S items he.2.2)

theorem filter_tied (S : C.Sound s F) :
    ∀ cond : Option Expr, Expr.OptionWithin F cond → C.TiedFilter s cond
  | none, _ => tiedFilter_none
  | some cond, he => S.tiedFilter_some (eval_tied S cond he)

theorem key_tied (S : C.Sound s F) :
    ∀ key : Option Expr, Expr.OptionWithin F key → C.TiedKey s key
  | none, _ => tiedKey_none
  | some key, he => S.tiedKey_some (eval_tied S key he)

end

end StaticConfig.Coupling.Sound

import StaticConfig.Proofs.Conversion.Markers
import StaticConfig.Proofs.Filling.Applied
import StaticConfig.Proofs.Filling.Denotes

/-!
The defaults that are collected from the expression of a constraint. Whatever the expression is,
they suit the type that they are collected for: nothing is collected where the type has no part
that the expression has.
-/
namespace StaticConfig

open Defaults

/-- Different numbers are written differently. -/
theorem toString_inj {i j : Nat} (h : toString i = toString j) : i = j := by
  have hdigits : Nat.toDigits 10 i = Nat.toDigits 10 j := by
    rw [← Nat.toList_repr, ← Nat.toList_repr]
    exact congrArg String.toList h
  rw [← Nat.ofDigitChars_ten_toDigits (n := i), hdigits, Nat.ofDigitChars_ten_toDigits]

namespace Ty.Inside

variable {name : String} {t u w : Ty}

theorem elim (h : t.Inside name u) :
    t.elementType? = some u ∨
    (∃ (ts : List Ty) (i : Nat), t = .tuple ts ∧ name = toString i ∧ ts[i]? = some u) ∨
    ∃ attrs optional, t = .object attrs optional ∧ Fields.get? name attrs = some u := by
  cases h with
  | list => exact .inl rfl
  | set => exact .inl rfl
  | map => exact .inl rfl
  | tuple h => exact .inr (.inl ⟨_, _, rfl, rfl, h⟩)
  | object h => exact .inr (.inr ⟨_, _, rfl, h⟩)

theorem of_elementType? (h : t.elementType? = some u) : t.Inside elementKey u := by
  cases t <;> cases h <;> constructor

/-- Under a name defaults are kept for one type only. -/
theorem unique (hu : t.Inside name u) (hw : t.Inside name w) : u = w := by
  rcases hu.elim with hi | ⟨ts, i, rfl, rfl, hi⟩ | ⟨attrs, optional, rfl, hi⟩
  · rcases hw.elim with hj | ⟨ts, i, rfl, -, -⟩ | ⟨attrs, optional, rfl, -⟩
    · exact Option.some.inj (hi.symm.trans hj)
    · cases hi
    · cases hi
  · rcases hw.elim with hj | ⟨ts, j, heq, hname, hj⟩ | ⟨attrs, optional, heq, -⟩
    · cases hj
    · cases heq
      cases toString_inj hname
      exact Option.some.inj (hi.symm.trans hj)
    · cases heq
  · rcases hw.elim with hj | ⟨ts, i, heq, -, -⟩ | ⟨attrs, optional, heq, hj⟩
    · cases hj
    · cases heq
    · cases heq
      exact Option.some.inj (hi.symm.trans hj)

end Ty.Inside

namespace Constraint

variable {library : Library} {name : String} {e value : Expr} {t u : Ty} {d : Option Defaults}
  {defaults : Fields Value} {children : Fields Defaults} {items : List (ObjectKey × Expr)}

theorem get?_addChild_self : Fields.get? name (addChild name d children) =
    d.or (Fields.get? name children) := by
  cases d with
  | none => rfl
  | some D => exact Fields.get?_insert_self name D children

theorem get?_addChild_of_ne {other : String} (h : other ≠ name) :
    Fields.get? other (addChild name d children) = Fields.get? other children := by
  cases d with
  | none => rfl
  | some D => exact Fields.get?_insert_of_ne h D children

theorem inside_nonEmpty? (name : String) :
    inside name (nonEmpty? ⟨t, defaults, children⟩) = Fields.get? name children := by
  unfold nonEmpty?
  split
  · next hempty =>
    obtain ⟨-, hchildren⟩ := Bool.and_eq_true_iff.1 hempty
    have hnil : children = [] := List.isEmpty_iff.1 hchildren
    rw [hnil]
    rfl
  · rfl

theorem ofAttr_nonEmpty? (name : String) :
    ofAttr name (nonEmpty? ⟨t, defaults, children⟩) = Fields.get? name defaults := by
  unfold nonEmpty?
  split
  · next hempty =>
    obtain ⟨hdefaults, -⟩ := Bool.and_eq_true_iff.1 hempty
    have hnil : defaults = [] := List.isEmpty_iff.1 hdefaults
    rw [hnil]
    rfl
  · rfl

/-- The default of an attribute, if it has one, added to `defaults`. -/
def addDefault? (library : Library) (name : String) (ty : Ty) (dflt : Option Expr)
    (defaults : Fields Value) : Report (Fields Value) :=
  match dflt with
  | some e => addDefault library name ty e defaults
  | none => pure defaults

/-- The defaults of an attribute are its own and those of its type. -/
theorem attrDefaults_eq (value : Expr) :
    attrDefaults library name t defaults value = (do
      let defaults ← addDefault? library name t (attrDefault? value) defaults
      let d ← defaultsOf library (attrType value) t
      pure (defaults, d)) := by
  cases value with
  | call span called args expand =>
    by_cases hcalled : called = "optional"
    · subst hcalled
      unfold attrDefaults
      rw [if_pos rfl]
      rcases args with - | ⟨arg, - | ⟨dflt, rest⟩⟩ <;> rfl
    · unfold attrDefaults
      rw [if_neg hcalled, attrDefault?_call hcalled, attrType_call hcalled]
      rfl
  | _ => rfl

/-- What is collected on the way suits the type. -/
structure Suit (t : Ty) (defaults : Fields Value) (children : Fields Defaults) : Prop where
  sortedDefaults : Fields.Sorted defaults
  sortedChildren : Fields.Sorted children
  marked : ∀ p ∈ defaults, p.2.MarkedOnce
  inside : ∀ name u, t.Inside name u → Suits (Fields.get? name children) u

namespace Suit

theorem nil : Suit t [] [] :=
  ⟨.nil, .nil, nofun, fun _ _ _ => .absent⟩

theorem addChild (h : Suit t defaults children) (hu : t.Inside name u) (hd : Suits d u) :
    Suit t defaults (addChild name d children) := by
  cases d with
  | none => exact h
  | some D =>
    refine ⟨h.sortedDefaults, Fields.sorted_insert h.sortedChildren name D, h.marked,
      fun other w hw => ?_⟩
    by_cases hother : other = name
    · subst hother
      rw [get?_addChild_self]
      exact hw.unique hu ▸ hd
    · rw [get?_addChild_of_ne hother]
      exact h.inside other w hw

theorem addDefault? (h : Suit t defaults children) (hu : u.Static) {dflt : Option Expr} :
    Suit t (addDefault? library name u dflt defaults).result children := by
  cases dflt with
  | none => exact h
  | some e =>
    simp only [Constraint.addDefault?, addDefault, Report.bind_eq]
    split
    · next v hv =>
      refine ⟨Fields.sorted_insert h.sortedDefaults name v, h.sortedChildren, fun p hp => ?_,
        h.inside⟩
      rcases Fields.mem_insert hp with rfl | hp
      · exact Value.markedOnce_of_convert hu hv
      · exact h.marked p hp
    · exact h

theorem suits (h : Suit t defaults children) :
    Suits (nonEmpty? ⟨t, defaults, children⟩) t := by
  unfold nonEmpty?
  split
  · exact .absent
  · exact .present rfl h.sortedDefaults h.sortedChildren h.marked h.inside

theorem tupleDefaults {types ts : List Ty} {index : Nat} {es : List Expr}
    (hes : ∀ e ∈ es, ∀ t : Ty, t.Static → Suits (defaultsOf library e t).result t)
    (htypes : (Ty.tuple types).Static) (hts : ts = types.drop index)
    (h : Suit (.tuple types) defaults children) :
    Suit (.tuple types) defaults (tupleDefaults library index children es ts).result := by
  induction es generalizing index children ts with
  | nil => exact h
  | cons e es ih =>
    cases ts with
    | nil => exact h
    | cons t ts =>
      have ht : types[index]? = some t := by
        rw [← List.head?_drop, ← hts]
        rfl
      have hin : (Ty.tuple types).Inside (toString index) t := .tuple ht
      have hchild := hes e List.mem_cons_self t (htypes.part hin.mem_parts)
      refine ih (fun e he => hes e (List.mem_cons_of_mem _ he)) ?_ (h.addChild hin hchild)
      rw [← List.tail_drop, ← hts]
      rfl

theorem objectDefaults {attrs : Fields Ty} {optional : Names}
    (hitems : ∀ item ∈ items, ∀ t : Ty, t.Static →
      Suits (defaultsOf library (attrType item.2) t).result t)
    (hattrs : (Ty.object attrs optional).Static)
    (h : Suit (.object attrs optional) defaults children) :
    Suit (.object attrs optional) (objectDefaults library attrs defaults children items).result.1
      (objectDefaults library attrs defaults children items).result.2 := by
  induction items generalizing defaults children with
  | nil => exact h
  | cons item items ih =>
    obtain ⟨key, value⟩ := item
    have hrest := fun item hitem => hitems item (List.mem_cons_of_mem _ hitem)
    rw [Constraint.objectDefaults]
    split
    · exact ih hrest h
    · next name u hname =>
      obtain ⟨own, -, hown⟩ := Option.bind_eq_some_iff.1 hname
      obtain ⟨w, hw, heq⟩ := Option.map_eq_some_iff.1 hown
      cases heq
      have hin : (Ty.object attrs optional).Inside name u := .object hw
      have hu := hattrs.part hin.mem_parts
      rw [attrDefaults_eq]
      exact ih hrest ((h.addDefault? hu).addChild hin (hitems _ List.mem_cons_self u hu))

end Suit

theorem sizeOf_snd_lt {α β : Type} [SizeOf α] [SizeOf β] (p : α × β) : sizeOf p.2 < sizeOf p := by
  obtain ⟨a, b⟩ := p
  simp only [Prod.mk.sizeOf_spec]
  omega

theorem sizeOf_attrType_le (e : Expr) : sizeOf (attrType e) ≤ sizeOf e := by
  unfold attrType
  split
  · next arg args h =>
    cases e with
    | call span name args expand =>
      simp only [optionalArgs?] at h
      split at h
      · cases h
        simp only [Expr.call.sizeOf_spec, List.cons.sizeOf_spec]
        omega
      · cases h
    | _ => cases h
  · exact Nat.le_refl _

/-- The defaults of a constraint suit the type that they are collected for. -/
theorem suits_defaultsOf (library : Library) : ∀ (e : Expr) (t : Ty), t.Static →
    Suits (defaultsOf library e t).result t
  | .parens _ inner, t, ht => suits_defaultsOf library inner t ht
  | .call span name args expand, t, ht => by
    unfold defaultsOf defaultsOfCall
    split
    · next elem helem =>
      split
      · next arg rest =>
        obtain ⟨make, -, helem⟩ := Option.bind_eq_some_iff.1 helem
        have hin := Ty.Inside.of_elementType? helem
        have harg := suits_defaultsOf library arg elem (ht.part hin.mem_parts)
        exact (Suit.nil.addChild hin harg).suits
      · exact .absent
    · split
      · split
        · next inner items rest types =>
          exact (Suit.nil.tupleDefaults (fun e he => suits_defaultsOf library e) ht rfl).suits
        · exact .absent
      · split
        · split
          · next inner items rest attrs optional =>
            refine (Suit.nil.objectDefaults (fun item hitem => ?_) ht).suits
            have hvalue := Nat.lt_of_le_of_lt (sizeOf_attrType_le item.2)
              (Nat.lt_trans (sizeOf_snd_lt item) (List.sizeOf_lt_of_mem hitem))
            exact suits_defaultsOf library (attrType item.2)
          · exact .absent
        · exact .absent
  | .literal _ _, _, _ | .template _ _, _, _ | .traversal _ _ _, _, _ | .relative _ _ _, _, _
  | .index _ _ _, _, _ | .splat _ _ _, _, _ | .tuple _ _, _, _ | .object _ _, _, _
  | .unary _ _ _, _, _ | .binary _ _ _ _, _, _ | .conditional _ _ _ _, _, _
  | .forEach _ _ _ _ _ _ _ _, _, _ => .absent
termination_by e => sizeOf e
decreasing_by
  all_goals subst_vars
  · decreasing_tactic
  · decreasing_tactic
  · simp only [Expr.call.sizeOf_spec, Expr.object.sizeOf_spec, List.cons.sizeOf_spec]
    omega
  · have hlt := List.sizeOf_lt_of_mem he
    simp only [Expr.call.sizeOf_spec, Expr.tuple.sizeOf_spec, List.cons.sizeOf_spec]
    omega

end Constraint

end StaticConfig

/-!
The defaults that an expression gives to its attributes are all collected: where it is read without
errors, there is a value for each default that is not null, at every depth. Of an attribute that is
declared twice the defaults inside of the first declaration may stay as well, so what is collected
has at least what the last declarations ask for.
-/
namespace StaticConfig

namespace Defaults

/-- Everything in the first one is in the second one. -/
def Within (o p : Option Defaults) : Prop :=
  ∀ D, o = some D → p = some D

theorem Within.trans {o p q : Option Defaults} (h : Within o p) (h' : Within p q) : Within o q :=
  fun D hD => h' D (h D hD)

theorem Within.inside {o p : Option Defaults} (h : Within o p) (name : String) :
    Within (inside name o) (inside name p) := by
  cases o with
  | none => nofun
  | some D =>
    rw [h D rfl]
    exact fun _ => id

theorem Within.ofAttr {o p : Option Defaults} (h : Within o p) {name : String} {a : Value}
    (ha : ofAttr name o = some a) : ofAttr name p = some a := by
  cases o with
  | none => cases ha
  | some D => rwa [h D rfl]

end Defaults

namespace Constraint

open Defaults

/-- There is a value for each default in the expression that is not null. -/
inductive Covers (library : Library) : Expr → Option Defaults → Prop
  | keyword {e : Expr} {name : String} {d : Option Defaults} : e.keyword? = some name →
      Covers library e d
  | parens {span : Span} {e : Expr} {d : Option Defaults} : Covers library e d →
      Covers library (.parens span e) d
  | collection {span : Span} {name : String} {make : Ty → Ty} {e : Expr} {expand : Bool}
      {d : Option Defaults} : collection? name = some make →
      Covers library e (inside elementKey d) → Covers library (.call span name [e] expand) d
  | tuple {span inner : Span} {items : List Expr} {expand : Bool} {d : Option Defaults} :
      (∀ (i : Nat) e, items[i]? = some e → Covers library e (inside (toString i) d)) →
      Covers library (.call span "tuple" [.tuple inner items] expand) d
  | object {span inner : Span} {items : List (ObjectKey × Expr)} {expand : Bool}
      {d : Option Defaults} :
      (∀ name value, declared? name items = some value →
        Covers library (attrType value) (inside name d)) →
      (∀ name dflt, default? name items = some dflt →
        (Eval.constant library dflt).result.isNull = false →
        ∃ a, ofAttr name d = some a ∧ a.isNull = false) →
      Covers library (.call span "object" [.object inner items] expand) d

variable {library : Library} {name : String} {e value dflt : Expr} {t : Ty} {d : Option Defaults}
  {defaults : Fields Value} {children : Fields Defaults} {items : List (ObjectKey × Expr)}
  {attrs : Fields Ty}

namespace Covers

variable {span : Span} {expand : Bool}

theorem of_parens (h : Covers library (.parens span e) d) : Covers library e d := by
  cases h with
  | keyword hname => exact .keyword hname
  | parens h => exact h

theorem of_collection {make : Ty → Ty} (h : Covers library (.call span name [e] expand) d)
    (hmake : collection? name = some make) : Covers library e (inside elementKey d) := by
  cases h with
  | keyword hname => cases hname
  | collection _ h => exact h
  | tuple => cases hmake
  | object => cases hmake

theorem of_tuple {inner : Span} {es : List Expr}
    (h : Covers library (.call span "tuple" [.tuple inner es] expand) d) (i : Nat) (e : Expr)
    (he : es[i]? = some e) : Covers library e (inside (toString i) d) := by
  generalize hname : "tuple" = name at h
  cases h with
  | keyword hword => cases hword
  | collection hmake _ =>
    subst hname
    cases hmake
  | tuple h => exact h i e he

theorem of_object {inner : Span}
    (h : Covers library (.call span "object" [.object inner items] expand) d) :
    (∀ name value, declared? name items = some value →
      Covers library (attrType value) (inside name d)) ∧
    ∀ name dflt, default? name items = some dflt →
      (Eval.constant library dflt).result.isNull = false →
      ∃ a, ofAttr name d = some a ∧ a.isNull = false := by
  generalize hname : "object" = name at h
  cases h with
  | keyword hword => cases hword
  | collection hmake _ =>
    subst hname
    cases hmake
  | object hinside hdefaults => exact ⟨hinside, hdefaults⟩

end Covers

/-- A default that is added without errors is found converted to the type. -/
theorem get?_addDefault (h : (addDefault library name t dflt defaults).diags.hasErrors = false) :
    ∃ a, (Eval.constant library dflt).result.convert t = .ok a ∧
      Fields.get? name (addDefault library name t dflt defaults).result = some a := by
  simp only [addDefault, Report.bind_eq, Diagnostics.hasErrors_append, Bool.or_eq_false_iff]
    at h ⊢
  split at h
  · next a ha => exact ⟨a, ha, Fields.get?_insert_self name a defaults⟩
  · cases h.2

theorem get?_addDefault?_of_ne {other : String} {dflt : Option Expr} (hne : other ≠ name) :
    Fields.get? other (addDefault? library name t dflt defaults).result =
      Fields.get? other defaults := by
  cases dflt with
  | none => rfl
  | some dflt =>
    simp only [addDefault?, addDefault, Report.bind_eq]
    split
    · next a ha => exact Fields.get?_insert_of_ne hne a defaults
    · rfl

theorem within_addChild {o : Option Defaults} :
    Within o (Fields.get? name (addChild name o children)) := by
  intro D hD
  rw [get?_addChild_self, hD, Option.some_or]

/-! One item after the other. -/

/-- The items from an index on change nothing of what is collected for the items before them. -/
theorem tupleDefaults_get? {es : List Expr} {ts : List Ty} {index : Nat}
    (hclean : (tupleDefaults library index children es ts).diags.hasErrors = false) :
    (∀ i < index, Fields.get? (toString i) (tupleDefaults library index children es ts).result =
      Fields.get? (toString i) children) ∧
    ∀ (i : Nat) e t, es[i]? = some e → ts[i]? = some t →
      (defaultsOf library e t).diags.hasErrors = false ∧
      Within (defaultsOf library e t).result
        (Fields.get? (toString (index + i))
          (tupleDefaults library index children es ts).result) := by
  induction es generalizing ts index children with
  | nil => exact ⟨fun _ _ => rfl, nofun⟩
  | cons e es ih =>
    cases ts with
    | nil => exact ⟨fun _ _ => rfl, nofun⟩
    | cons t ts =>
      simp only [tupleDefaults, Report.bind_eq, Diagnostics.hasErrors_append,
        Bool.or_eq_false_iff] at hclean ⊢
      obtain ⟨hbefore, hafter⟩ := ih hclean.2
      refine ⟨fun i hi => ?_, fun i a u ha hu => ?_⟩
      · refine (hbefore i (Nat.lt_succ_of_lt hi)).trans (get?_addChild_of_ne fun heq => ?_)
        exact Nat.ne_of_lt hi (toString_inj heq)
      · cases i with
        | zero =>
          cases ha
          cases hu
          rw [Nat.add_zero, hbefore index (Nat.lt_succ_self index)]
          exact ⟨hclean.1, within_addChild⟩
        | succ i =>
          rw [← Nat.add_assoc, Nat.add_right_comm]
          exact hafter i a u ha hu

/-- One item of an object type changes what is collected for the attribute of its name only. -/
theorem objectDefaults_step {key : ObjectKey} (ht : Fields.get? name attrs = some t)
    (hclean : (objectDefaults library attrs defaults children
      ((key, value) :: items)).diags.hasErrors = false) :
    ∃ more inner, (objectDefaults library attrs defaults children ((key, value) :: items)).result =
        (objectDefaults library attrs more inner items).result ∧
      (objectDefaults library attrs more inner items).diags.hasErrors = false ∧
      (keyName? key = some name →
        (addDefault? library name t (attrDefault? value) defaults).diags.hasErrors = false ∧
        more = (addDefault? library name t (attrDefault? value) defaults).result ∧
        (defaultsOf library (attrType value) t).diags.hasErrors = false ∧
        inner = addChild name (defaultsOf library (attrType value) t).result children) ∧
      (keyName? key ≠ some name → Fields.get? name more = Fields.get? name defaults ∧
        Fields.get? name inner = Fields.get? name children) := by
  rw [objectDefaults] at hclean ⊢
  split at hclean
  · next hnone =>
    refine ⟨defaults, children, rfl, hclean, fun hkey => ?_, fun _ => ⟨rfl, rfl⟩⟩
    rw [hkey, Option.bind_some, ht] at hnone
    cases hnone
  · next own u hown =>
    obtain ⟨k, hk, hu⟩ := Option.bind_eq_some_iff.1 hown
    obtain ⟨w, hw, heq⟩ := Option.map_eq_some_iff.1 hu
    cases heq
    simp only [attrDefaults_eq, Report.bind_eq, Report.pure_eq, List.append_nil,
      Diagnostics.hasErrors_append, Bool.or_eq_false_iff] at hclean ⊢
    refine ⟨_, _, rfl, hclean.2, fun hkey => ?_, fun hkey => ?_⟩
    · cases hk.symm.trans hkey
      cases ht.symm.trans hw
      exact ⟨hclean.1.1, rfl, hclean.1.2, rfl⟩
    · have hne : name ≠ own := fun heq => hkey (heq ▸ hk)
      exact ⟨get?_addDefault?_of_ne hne, get?_addChild_of_ne hne⟩

theorem objectDefaults_child (ht : Fields.get? name attrs = some t)
    (hclean : (objectDefaults library attrs defaults children items).diags.hasErrors = false) :
    (declared? name items = none →
      Fields.get? name (objectDefaults library attrs defaults children items).result.2 =
        Fields.get? name children) ∧
    ∀ value, declared? name items = some value →
      (defaultsOf library (attrType value) t).diags.hasErrors = false ∧
      Within (defaultsOf library (attrType value) t).result
        (Fields.get? name (objectDefaults library attrs defaults children items).result.2) := by
  induction items generalizing defaults children with
  | nil => exact ⟨fun _ => rfl, nofun⟩
  | cons item items ih =>
    obtain ⟨key, value⟩ := item
    obtain ⟨more, inner, hresult, hrest, hsame, hother⟩ := objectDefaults_step ht hclean
    obtain ⟨hkept, hlast⟩ := ih hrest
    rw [hresult]
    refine ⟨fun hnone => ?_, fun x hx => ?_⟩
    · obtain ⟨hlater, hhere⟩ := Option.or_eq_none_iff.1 hnone
      have hkey : keyName? key ≠ some name := fun hkey => by
        rw [if_pos hkey] at hhere
        cases hhere
      exact (hkept hlater).trans (hother hkey).2
    · rcases Option.or_eq_some_iff.1 hx with hx | ⟨hlater, hx⟩
      · exact hlast x hx
      · split at hx
        · next hkey =>
          cases hx
          obtain ⟨-, -, hclean, hinner⟩ := hsame hkey
          rw [hkept hlater, hinner]
          exact ⟨hclean, within_addChild⟩
        · cases hx

theorem objectDefaults_default (ht : Fields.get? name attrs = some t)
    (hclean : (objectDefaults library attrs defaults children items).diags.hasErrors = false) :
    (default? name items = none →
      Fields.get? name (objectDefaults library attrs defaults children items).result.1 =
        Fields.get? name defaults) ∧
    ∀ dflt, default? name items = some dflt → ∃ a,
      (Eval.constant library dflt).result.convert t = .ok a ∧
      Fields.get? name (objectDefaults library attrs defaults children items).result.1 =
        some a := by
  induction items generalizing defaults children with
  | nil => exact ⟨fun _ => rfl, nofun⟩
  | cons item items ih =>
    obtain ⟨key, value⟩ := item
    obtain ⟨more, inner, hresult, hrest, hsame, hother⟩ := objectDefaults_step ht hclean
    obtain ⟨hkept, hlast⟩ := ih hrest
    rw [hresult]
    refine ⟨fun hnone => ?_, fun dflt hdflt => ?_⟩
    · obtain ⟨hlater, hhere⟩ := Option.or_eq_none_iff.1 hnone
      rw [hkept hlater]
      by_cases hkey : keyName? key = some name
      · rw [if_pos hkey] at hhere
        rw [(hsame hkey).2.1, hhere]
        rfl
      · exact (hother hkey).1
    · rcases Option.or_eq_some_iff.1 hdflt with hdflt | ⟨hlater, hdflt⟩
      · exact hlast dflt hdflt
      · split at hdflt
        · next hkey =>
          obtain ⟨hclean, hmore, -, -⟩ := hsame hkey
          rw [hdflt] at hclean hmore
          rw [hkept hlater, hmore]
          exact get?_addDefault hclean
        · cases hdflt

/-! A constraint as a whole. -/

theorem defaultsOf_collection {span : Span} {make : Ty → Ty} {expand : Bool}
    (hmake : collection? name = some make) :
    defaultsOf library (.call span name [e] expand) (make t) = (do
      let d ← defaultsOf library e t
      pure (nonEmpty? ⟨make t, [], addChild elementKey d []⟩)) := by
  have hcall : defaultsOf library (.call span name [e] expand) (make t) =
      defaultsOfCall library name [e] (make t) := rfl
  rw [hcall]
  unfold defaultsOfCall
  rw [hmake, Option.bind_some, elementType?_of_collection? hmake]

theorem defaultsOf_tuple {span inner : Span} {es : List Expr} {ts : List Ty} {expand : Bool} :
    defaultsOf library (.call span "tuple" [.tuple inner es] expand) (.tuple ts) = (do
      let children ← tupleDefaults library 0 [] es ts
      pure (nonEmpty? ⟨.tuple ts, [], children⟩)) := rfl

theorem defaultsOf_object {span inner : Span} {optional : Names} {expand : Bool} :
    defaultsOf library (.call span "object" [.object inner items] expand)
      (.object attrs optional) = (do
      let (defaults, children) ← objectDefaults library attrs [] [] items
      pure (nonEmpty? ⟨.object attrs optional, defaults, children⟩)) := rfl

/-- By induction on what the expression stands for. -/
theorem covers_of_defaultsOf (h : Denotes e t)
    (hclean : (defaultsOf library e t).diags.hasErrors = false)
    (hd : Within (defaultsOf library e t).result d) : Covers library e d := by
  induction h generalizing d with
  | keyword hname _ => exact .keyword hname
  | parens _ ih => exact .parens (ih hclean hd)
  | collection hmake _ ih =>
    simp only [defaultsOf_collection hmake, Report.bind_eq, Report.pure_eq, List.append_nil]
      at hclean hd
    have hin := hd.inside elementKey
    rw [inside_nonEmpty?] at hin
    exact .collection hmake (ih hclean (within_addChild.trans hin))
  | @tuple _ _ es _ ts hlength _ ih =>
    simp only [defaultsOf_tuple, Report.bind_eq, Report.pure_eq, List.append_nil] at hclean hd
    refine .tuple fun i e he => ?_
    obtain ⟨hlt, -⟩ := List.getElem?_eq_some_iff.1 he
    have ht : ts[i]? = some ts[i] := List.getElem?_eq_getElem (hlength ▸ hlt)
    obtain ⟨hclean, hwithin⟩ := (tupleDefaults_get? hclean).2 i e _ he ht
    have hin := hd.inside (toString i)
    rw [inside_nonEmpty?] at hin
    rw [Nat.zero_add] at hwithin
    exact ih i e _ he ht hclean (hwithin.trans hin)
  | @object _ _ items _ attrs _ hsorted hnames _ ih =>
    simp only [defaultsOf_object, Report.bind_eq, Report.pure_eq, List.append_nil] at hclean hd
    have hattr {name : String} {value : Expr} (hvalue : declared? name items = some value) :
        ∃ t, Fields.get? name attrs = some t := by
      refine Option.isSome_iff_exists.1 ?_
      rw [hnames, hvalue]
      rfl
    refine .object (fun name value hvalue => ?_) fun name dflt hdflt hnull => ?_
    · obtain ⟨t, ht⟩ := hattr hvalue
      obtain ⟨hclean, hwithin⟩ := (objectDefaults_child ht hclean).2 value hvalue
      have hin := hd.inside name
      rw [inside_nonEmpty?] at hin
      exact ih name value t hvalue ht hclean (hwithin.trans hin)
    · obtain ⟨value, hvalue⟩ := exists_declared?_of_default? hdflt
      obtain ⟨t, ht⟩ := hattr hvalue
      obtain ⟨a, ha, hget⟩ := (objectDefaults_default ht hclean).2 dflt hdflt
      refine ⟨a, hd.ofAttr ?_, (Value.converts_of_convert _ ha).isNull_eq.trans hnull⟩
      rw [ofAttr_nonEmpty?]
      exact hget

end Constraint

end StaticConfig

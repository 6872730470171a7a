import StaticConfig.Constraint.Reader
import StaticConfig.Proofs.Evaluation.Located
import StaticConfig.Proofs.Unification.Reach

/-!
The type that an expression stands for. Where the reader of constraints reports no error it gives
this type. Of the declarations of one attribute the last one counts; an attribute is optional as
soon as one of them says so, and each attribute may have a default.
-/
namespace StaticConfig

/-- A collection type has one type inside of it, and no attributes. -/
theorem Ty.parts_of_elementType? {t e : Ty} (h : t.elementType? = some e) :
    t.parts = [e] ∧ t.attrNames = [] := by
  cases t <;> cases h <;> exact ⟨rfl, rfl⟩

namespace Constraint

/-- The type that a word stands for. -/
def named? (name : String) : Option Ty :=
  if name = "string" then some .string
  else if name = "number" then some .number
  else if name = "bool" then some .bool
  else if name = "any" then some .dynamic
  else none

/-- The arguments of `optional`, if the attribute is declared with it. -/
def optionalArgs? : Expr → Option (List Expr)
  | .call _ name args _ => if name = "optional" then some args else none
  | _ => none

/-- The expression for the type of an attribute. -/
def attrType (e : Expr) : Expr :=
  match optionalArgs? e with
  | some (arg :: _) => arg
  | _ => e

/-- The expression for the default of an attribute. -/
def attrDefault? (e : Expr) : Option Expr :=
  match optionalArgs? e with
  | some (_ :: dflt :: _) => some dflt
  | _ => none

/-- What is found last under the name. -/
def last? {α : Type} (name : String) (find : Expr → Option α) :
    List (ObjectKey × Expr) → Option α
  | [] => none
  | (key, value) :: items =>
    (last? name find items).or (if keyName? key = some name then find value else none)

/-- The last declaration of the attribute. -/
def declared? (name : String) (items : List (ObjectKey × Expr)) : Option Expr :=
  last? name some items

/-- The last default that the attribute is given. -/
def default? (name : String) (items : List (ObjectKey × Expr)) : Option Expr :=
  last? name attrDefault? items

/-- The expression stands for the type. -/
inductive Denotes : Expr → Ty → Prop
  | keyword {e : Expr} {name : String} {t : Ty} : e.keyword? = some name →
      named? name = some t → Denotes e t
  | parens {span : Span} {e : Expr} {t : Ty} : Denotes e t → Denotes (.parens span e) t
  | collection {span : Span} {name : String} {make : Ty → Ty} {e : Expr} {expand : Bool} {t : Ty} :
      collection? name = some make → Denotes e t →
      Denotes (.call span name [e] expand) (make t)
  | tuple {span inner : Span} {items : List Expr} {expand : Bool} {ts : List Ty} :
      ts.length = items.length →
      (∀ (i : Nat) e t, items[i]? = some e → ts[i]? = some t → Denotes e t) →
      Denotes (.call span "tuple" [.tuple inner items] expand) (.tuple ts)
  | object {span inner : Span} {items : List (ObjectKey × Expr)} {expand : Bool}
      {attrs : Fields Ty} {optional : Names} : Fields.Sorted attrs →
      (∀ name, (Fields.get? name attrs).isSome = (declared? name items).isSome) →
      (∀ name value t, declared? name items = some value → Fields.get? name attrs = some t →
        Denotes (attrType value) t) →
      Denotes (.call span "object" [.object inner items] expand) (.object attrs optional)

variable {e : Expr} {t : Ty} {span : Span} {name : String} {items : List (ObjectKey × Expr)}

theorem attrType_call {args : List Expr} {expand : Bool} (hname : name ≠ "optional") :
    attrType (.call span name args expand) = .call span name args expand := by
  simp only [attrType, optionalArgs?, if_neg hname]

theorem attrDefault?_call {args : List Expr} {expand : Bool} (hname : name ≠ "optional") :
    attrDefault? (.call span name args expand) = none := by
  simp only [attrDefault?, optionalArgs?, if_neg hname]

theorem parts_attrType_subset (e : Expr) : (attrType e).parts ⊆ e.parts := by
  unfold attrType
  split
  · next arg _ h =>
    cases e with
    | call span name args expand =>
      simp only [optionalArgs?] at h
      split at h
      · cases h
        exact List.subset_cons_of_subset _ (Expr.parts_subset_all List.mem_cons_self)
      · cases h
    | _ => cases h
  · exact List.Subset.refl _

/-- What is found last is found in an item of the name. -/
theorem mem_of_last? {α : Type} {find : Expr → Option α} {a : α}
    (h : last? name find items = some a) : ∃ key value,
      (key, value) ∈ items ∧ keyName? key = some name ∧ find value = some a := by
  induction items with
  | nil => cases h
  | cons item items ih =>
    obtain ⟨key, value⟩ := item
    rcases Option.or_eq_some_iff.1 h with h | ⟨-, h⟩
    · obtain ⟨key, value, hmem, hfound⟩ := ih h
      exact ⟨key, value, List.mem_cons_of_mem _ hmem, hfound⟩
    · split at h
      · next hkey => exact ⟨key, value, List.mem_cons_self, hkey, h⟩
      · cases h

theorem parts_subset_of_declared? {value : Expr} (h : declared? name items = some value) :
    (attrType value).parts ⊆ Expr.partsOfItems items := by
  obtain ⟨key, value, hmem, -, hvalue⟩ := mem_of_last? h
  cases hvalue
  exact List.Subset.trans (parts_attrType_subset value) (Expr.parts_subset_items hmem).1

/-- An attribute with a default is declared. -/
theorem exists_declared?_of_default? {dflt : Expr} (h : default? name items = some dflt) :
    ∃ value, declared? name items = some value := by
  obtain ⟨key, value, hmem, hkey, -⟩ := mem_of_last? h
  clear h
  induction items with
  | nil => cases hmem
  | cons item items ih =>
    cases hrest : declared? name items with
    | some x => exact ⟨x, by simp only [declared?, last?] at hrest ⊢; rw [hrest]; rfl⟩
    | none =>
      rcases List.mem_cons.1 hmem with rfl | hmem
      · exact ⟨value, by simp only [declared?, last?] at hrest ⊢; rw [hrest, if_pos hkey]; rfl⟩
      · obtain ⟨x, hx⟩ := ih hmem
        cases hrest.symm.trans hx

theorem named?_of_ofKeyword (h : (ofKeyword name e).diags.hasErrors = false) :
    named? name = some (ofKeyword name e).result := by
  unfold ofKeyword at h ⊢
  unfold named?
  by_cases hstring : name = "string"
  · simp only [if_pos hstring]
    rfl
  · by_cases hnumber : name = "number"
    · simp only [if_neg hstring, if_pos hnumber]
      rfl
    · by_cases hbool : name = "bool"
      · simp only [if_neg hstring, if_neg hnumber, if_pos hbool]
        rfl
      · by_cases hany : name = "any"
        · simp only [if_neg hstring, if_neg hnumber, if_neg hbool, if_pos hany]
          rfl
        · simp only [if_neg hstring, if_neg hnumber, if_neg hbool, if_neg hany] at h
          repeat' split at h
          all_goals contradiction

theorem denotes_keywordOr {other : Report Ty}
    (hother : other.diags.hasErrors = false → Denotes e other.result)
    (h : (keywordOr e other).diags.hasErrors = false) :
    Denotes e (keywordOr e other).result := by
  unfold keywordOr at h ⊢
  split at h
  · next hname => exact .keyword hname (named?_of_ofKeyword h)
  · exact hother h

theorem denotes_keywordOr_refuse {detail : String}
    (h : (keywordOr e (refuse detail e)).diags.hasErrors = false) :
    Denotes e (keywordOr e (refuse detail e)).result :=
  denotes_keywordOr nofun h

/-- A word stands for a primitive type, or it is `any`. -/
theorem of_named? (h : named? name = some t) :
    t.isPrimitive = true ∨ name = "any" ∧ t = .dynamic := by
  unfold named? at h
  split at h
  · cases h
    exact .inl rfl
  · split at h
    · cases h
      exact .inl rfl
    · split at h
      · cases h
        exact .inl rfl
      · split at h
        · next hany =>
          cases h
          exact .inr ⟨hany, rfl⟩
        · cases h

mutual

theorem denotes_typeOf : ∀ e : Expr, (typeOf e).diags.hasErrors = false →
    Denotes e (typeOf e).result
  | .call span name args expand, h => denotes_typeOfCall span name args expand h
  | .parens _ inner, h => denotes_keywordOr (fun h => .parens (denotes_typeOf inner h)) h
  | .literal _ _, h | .template _ _, h | .traversal _ _ _, h | .relative _ _ _, h
  | .index _ _ _, h | .splat _ _ _, h | .tuple _ _, h | .object _ _, h | .unary _ _ _, h
  | .binary _ _ _ _, h | .conditional _ _ _ _, h | .forEach _ _ _ _ _ _ _ _, h =>
    denotes_keywordOr_refuse h

theorem denotes_typeOfCall : ∀ (span : Span) (name : String) (args : List Expr) (expand : Bool),
    (typeOfCall (.call span name args expand) name args).diags.hasErrors = false →
    Denotes (.call span name args expand)
      (typeOfCall (.call span name args expand) name args).result
  | span, name, args, expand, h => by
    unfold typeOfCall at h ⊢
    split at h
    · next make hmake =>
      split at h
      · next arg =>
        simp only [Report.bind_eq, Report.pure_eq, List.append_nil] at h
        simp only [Report.bind_eq, Report.pure_eq]
        exact .collection hmake (denotes_typeOf arg h)
      · contradiction
    · split at h
      · next htuple =>
        subst htuple
        split at h
        · next inner items =>
          simp only [Report.bind_eq, Report.pure_eq, List.append_nil] at h
          simp only [Report.bind_eq, Report.pure_eq]
          obtain ⟨hlength, hitems⟩ := denotes_typesOf items h
          exact .tuple hlength hitems
        · contradiction
      · split at h
        · next hobject =>
          subst hobject
          split at h
          · next inner items =>
            simp only [Report.bind_eq, Report.pure_eq, List.append_nil] at h
            simp only [Report.bind_eq, Report.pure_eq]
            obtain ⟨hsorted, hnames, hattrs⟩ := denotes_attrsOf items [] [] .nil h
            refine .object hsorted (fun name => ?_) fun name value t hvalue ht => ?_
            · cases hvalue : declared? name items with
              | none => rw [hnames name hvalue]; rfl
              | some value =>
                obtain ⟨t, ht, -⟩ := hattrs name value hvalue
                rw [ht]
                rfl
            · obtain ⟨u, hu, hdenotes⟩ := hattrs name value hvalue
              rw [ht] at hu
              cases hu
              exact hdenotes
          · contradiction
        · split at h <;> contradiction

theorem denotes_typesOf : ∀ es : List Expr, (typesOf es).diags.hasErrors = false →
    (typesOf es).result.length = es.length ∧
      ∀ (i : Nat) e t, es[i]? = some e → (typesOf es).result[i]? = some t → Denotes e t
  | [], _ => ⟨rfl, nofun⟩
  | e :: es, h => by
    simp only [typesOf, Report.bind_eq, Report.pure_eq, Diagnostics.hasErrors_append,
      Bool.or_eq_false_iff] at h
    obtain ⟨hlength, hrest⟩ := denotes_typesOf es h.2.1
    refine ⟨congrArg Nat.succ hlength, fun i a t ha ht => ?_⟩
    cases i with
    | zero =>
      cases ha
      cases ht
      exact denotes_typeOf e h.1
    | succ i => exact hrest i a t ha ht

theorem denotes_attrsOf : ∀ (items : List (ObjectKey × Expr)) (attrs : Fields Ty)
    (optional : Names), Fields.Sorted attrs →
    (attrsOf attrs optional items).diags.hasErrors = false →
    Fields.Sorted (attrsOf attrs optional items).result.1 ∧
      (∀ name, declared? name items = none →
        Fields.get? name (attrsOf attrs optional items).result.1 = Fields.get? name attrs) ∧
      ∀ name value, declared? name items = some value → ∃ t,
        Fields.get? name (attrsOf attrs optional items).result.1 = some t ∧
          Denotes (attrType value) t
  | [], attrs, optional, hattrs, _ => ⟨hattrs, fun _ _ => rfl, nofun⟩
  | (key, value) :: items, attrs, optional, hattrs, h => by
    unfold attrsOf at h ⊢
    split at h
    · contradiction
    · next own hown =>
      simp only [Report.bind_eq, Diagnostics.hasErrors_append, Bool.or_eq_false_iff] at h
      obtain ⟨t, isOptional, hresult, hdenotes⟩ := denotes_attrOf value h.1
      simp only [Report.bind_eq, hresult] at h ⊢
      obtain ⟨hsorted, hnames, hrest⟩ :=
        denotes_attrsOf items _ _ (Fields.sorted_insert hattrs own t) h.2
      refine ⟨hsorted, fun name hname => ?_, fun name x hx => ?_⟩
      · obtain ⟨hlater, hhere⟩ := Option.or_eq_none_iff.1 hname
        have hne : name ≠ own := by
          rintro rfl
          rw [hown, if_pos rfl] at hhere
          cases hhere
        rw [hnames name hlater, Fields.get?_insert_of_ne hne]
      · rcases Option.or_eq_some_iff.1 hx with hx | ⟨hlater, hx⟩
        · exact hrest name x hx
        · split at hx
          · next heq =>
            cases hx
            cases hown.symm.trans heq
            exact ⟨t, by rw [hnames own hlater, Fields.get?_insert_self], hdenotes⟩
          · cases hx

theorem denotes_attrOf : ∀ value : Expr, (attrOf value).diags.hasErrors = false →
    ∃ t isOptional, (attrOf value).result = some (t, isOptional) ∧ Denotes (attrType value) t
  | .call span name args expand, h => by
    unfold attrOf at h ⊢
    by_cases hname : name = "optional"
    · subst hname
      simp only [if_true] at h ⊢
      split at h
      · next arg =>
        simp only [Report.bind_eq, Report.pure_eq, List.append_nil] at h
        exact ⟨_, _, rfl, denotes_typeOf arg h⟩
      · next arg _ =>
        simp only [Report.bind_eq, Report.pure_eq, List.append_nil] at h
        exact ⟨_, _, rfl, denotes_typeOf arg h⟩
      · contradiction
    · rw [if_neg hname] at h ⊢
      simp only [Report.bind_eq, Report.pure_eq, List.append_nil] at h
      rw [attrType_call hname]
      exact ⟨_, _, rfl, denotes_typeOfCall span name args expand h⟩
  | .parens span inner, h => by
    simp only [attrOf, Report.bind_eq, Report.pure_eq, List.append_nil] at h
    exact ⟨_, _, rfl, denotes_keywordOr (fun h => .parens (denotes_typeOf inner h)) h⟩
  | .literal _ _, h | .template _ _, h | .traversal _ _ _, h | .relative _ _ _, h
  | .index _ _ _, h | .splat _ _ _, h | .tuple _ _, h | .object _ _, h | .unary _ _ _, h
  | .binary _ _ _ _, h | .conditional _ _ _ _, h | .forEach _ _ _ _ _ _ _ _, h => by
    simp only [attrOf, Report.bind_eq, Report.pure_eq, List.append_nil] at h
    exact ⟨_, _, rfl, denotes_keywordOr_refuse h⟩

end

theorem elementType?_of_collection? {make : Ty → Ty} (h : collection? name = some make) :
    (make t).elementType? = some t := by
  unfold collection? at h
  split at h
  · cases h
    rfl
  · split at h
    · cases h
      rfl
    · split at h <;> cases h
      rfl

/-- The attributes of an object type have the types that declarations of their names stand for. -/
theorem exists_declared?_of_mem {attrs : Fields Ty} (hsorted : Fields.Sorted attrs)
    (hnames : ∀ name, (Fields.get? name attrs).isSome = (declared? name items).isSome)
    (ht : t ∈ Fields.values attrs) : ∃ name value,
      declared? name items = some value ∧ Fields.get? name attrs = some t := by
  obtain ⟨⟨name, t⟩, hmem, rfl⟩ := List.mem_map.1 ht
  have hget := Fields.get?_of_mem hsorted hmem
  have hsome : (declared? name items).isSome = true := by rw [← hnames, hget]; rfl
  obtain ⟨value, hvalue⟩ := Option.isSome_iff_exists.1 hsome
  exact ⟨name, value, hvalue, hget⟩

namespace Denotes

theorem of_parens (h : Denotes (.parens span e) t) : Denotes e t := by
  cases h with
  | keyword hname h => exact .keyword hname h
  | parens h => exact h

theorem of_collection {make : Ty → Ty} {expand : Bool} (h : Denotes (.call span name [e] expand) t)
    (hmake : collection? name = some make) : ∃ u, t = make u ∧ Denotes e u := by
  cases h with
  | keyword hname _ => cases hname
  | collection hmake' h =>
    cases hmake.symm.trans hmake'
    exact ⟨_, rfl, h⟩
  | tuple => cases hmake
  | object => cases hmake

theorem of_tuple {inner : Span} {es : List Expr} {expand : Bool}
    (h : Denotes (.call span "tuple" [.tuple inner es] expand) t) :
    ∃ ts, t = .tuple ts ∧ ts.length = es.length ∧
      ∀ (i : Nat) e u, es[i]? = some e → ts[i]? = some u → Denotes e u := by
  generalize hname : "tuple" = name at h
  cases h with
  | keyword hword _ => cases hword
  | collection hmake _ =>
    subst hname
    cases hmake
  | tuple hlength h => exact ⟨_, rfl, hlength, h⟩

theorem of_object {inner : Span} {expand : Bool}
    (h : Denotes (.call span "object" [.object inner items] expand) t) :
    ∃ attrs optional, t = .object attrs optional ∧
      (∀ name, (Fields.get? name attrs).isSome = (declared? name items).isSome) ∧
      ∀ name value u, declared? name items = some value → Fields.get? name attrs = some u →
        Denotes (attrType value) u := by
  generalize hname : "object" = name at h
  cases h with
  | keyword hword _ => cases hword
  | collection hmake _ =>
    subst hname
    cases hmake
  | object _ hnames h => exact ⟨_, _, rfl, hnames, h⟩

theorem ordered (h : Denotes e t) : t.Ordered := by
  induction h with
  | @keyword e name t _ h =>
    obtain hprimitive | ⟨-, rfl⟩ := of_named? h
    · cases t <;> first | contradiction | exact .intro .nil nofun
    · exact .intro .nil nofun
  | parens _ ih => exact ih
  | collection hmake _ ih =>
    obtain ⟨hparts, hnames⟩ := Ty.parts_of_elementType? (elementType?_of_collection? hmake)
    refine .intro (hnames ▸ .nil) fun u hu => ?_
    rw [hparts, List.mem_singleton] at hu
    exact hu ▸ ih
  | tuple hlength _ ih =>
    refine .intro .nil fun u hu => ?_
    obtain ⟨i, hi⟩ := List.mem_iff_getElem?.1 hu
    obtain ⟨hlt, -⟩ := List.getElem?_eq_some_iff.1 hi
    exact ih i _ u (List.getElem?_eq_getElem (hlength ▸ hlt)) hi
  | object hsorted hnames _ ih =>
    refine .intro ((Fields.sorted_iff_keys _).1 hsorted) fun u hu => ?_
    obtain ⟨name, value, hvalue, hget⟩ := exists_declared?_of_mem hsorted hnames hu
    exact ih name value u hvalue hget

/-- An expression without the word `any` stands for a type without `dynamic`. -/
theorem hasDynamic_eq_false (h : Denotes e t) (hany : ∀ p ∈ e.parts, p.keyword? ≠ some "any") :
    t.hasDynamic = false := by
  induction h with
  | @keyword e name t hname h =>
    obtain hprimitive | ⟨rfl, -⟩ := of_named? h
    · cases t <;> first | contradiction | rfl
    · exact absurd hname (hany e (Expr.mem_parts_self e))
  | parens _ ih => exact ih fun p hp => hany p (List.mem_cons_of_mem _ hp)
  | @collection _ _ make _ _ t hmake _ ih =>
    obtain ⟨hparts, -⟩ := Ty.parts_of_elementType? (elementType?_of_collection? (t := t) hmake)
    have ht := ih fun p hp =>
      hany p (List.mem_cons_of_mem _ (Expr.parts_subset_all List.mem_cons_self hp))
    refine Ty.hasDynamic_eq_false_iff.2 ⟨fun hdynamic => ?_, fun u hu => ?_⟩
    · rw [hdynamic] at hparts
      cases hparts
    · rw [hparts, List.mem_singleton] at hu
      exact hu ▸ ht
  | @tuple _ _ items _ ts hlength _ ih =>
    refine Ty.hasDynamic_eq_false_iff.2 ⟨nofun, fun u hu => ?_⟩
    obtain ⟨i, hi⟩ := List.mem_iff_getElem?.1 hu
    obtain ⟨hlt, -⟩ := List.getElem?_eq_some_iff.1 hi
    refine ih i _ u (List.getElem?_eq_getElem (hlength ▸ hlt)) hi fun p hp => hany p ?_
    have hall := Expr.parts_subset_all (List.getElem_mem (hlength ▸ hlt)) hp
    exact List.mem_cons_of_mem _ (List.mem_append_left _ (List.mem_cons_of_mem _ hall))
  | @object _ _ items _ attrs _ hsorted hnames _ ih =>
    refine Ty.hasDynamic_eq_false_iff.2 ⟨nofun, fun u hu => ?_⟩
    obtain ⟨name, value, hvalue, hget⟩ := exists_declared?_of_mem hsorted hnames hu
    refine ih name value u hvalue hget fun p hp => hany p ?_
    have hall := parts_subset_of_declared? hvalue hp
    exact List.mem_cons_of_mem _ (List.mem_append_left _ (List.mem_cons_of_mem _ hall))

end Denotes

end Constraint

end StaticConfig

import StaticConfig.Constraint.Defaults
import StaticConfig.Proofs.Conversion.Collected
import StaticConfig.Proofs.Conversion.MarkedOnce
import StaticConfig.Proofs.Conversion.Parts
import StaticConfig.Proofs.Fields

/-!
Filling in defaults, part by part. What a value becomes depends on its parts and on what is filled
in inside them; an attribute has its own value, or its default where it is missing or null. A value
that the type is not about stays as it is, and marks stay where they are.
-/
namespace StaticConfig.Defaults

/-- The value with the defaults filled in, if there are any. -/
def fill : Option Defaults → Value → Value
  | some d, v => d.apply v
  | none, v => v

/-- What is filled in deeper, under the name. -/
def inside (name : String) : Option Defaults → Option Defaults
  | some d => Fields.get? name d.children
  | none => none

/-- The default of the attribute. -/
def ofAttr (name : String) : Option Defaults → Option Value
  | some d => Fields.get? name d.defaults
  | none => none

/-- What the attribute has, its default included. -/
def attrOr (d : Option Defaults) (name : String) (entries : Fields Value) : Option Value :=
  match Fields.get? name entries with
  | some a => if a.isNull then (ofAttr name d).or (some a) else some a
  | none => ofAttr name d

variable {d : Option Defaults} {v : Value} {name : String}

theorem applyAt_eq (name : String) (children : List (String × Defaults)) (v : Value) :
    applyAt name children v = fill (Fields.get? name children) v := by
  induction children with
  | nil => rfl
  | cons c rest ih =>
    obtain ⟨k, d⟩ := c
    by_cases hk : k = name
    · simp only [applyAt, Fields.get?, hk, if_true]
      rfl
    · simp only [applyAt, Fields.get?, hk, if_false, ih]

theorem get?_fillMissing {defaults : List (String × Value)} (h : Fields.Sorted defaults)
    (attrs : Fields Value) :
    Fields.get? name (fillMissing defaults attrs) =
      match Fields.get? name attrs with
      | some a => if a.isNull then (Fields.get? name defaults).or (some a) else some a
      | none => Fields.get? name defaults := by
  induction defaults generalizing attrs with
  | nil =>
    simp only [fillMissing, Fields.get?]
    split
    · next h => rw [h]; simp
    · next h => exact h
  | cons e rest ih =>
    obtain ⟨k, x⟩ := e
    obtain ⟨hlt, hrest⟩ := List.pairwise_cons.1 h
    have hnone : Fields.get? k rest = none := Fields.get?_eq_none_of_forall_lt hlt
    by_cases hk : k = name
    · subst hk
      have hinsert : Fields.get? k (fillMissing rest (attrs.insert k x)) = some x := by
        rw [ih hrest, Fields.get?_insert_self, hnone]
        simp
      simp only [fillMissing, Fields.get?, if_true]
      cases hget : Fields.get? k attrs with
      | none => exact hinsert
      | some a =>
        by_cases hnull : a.isNull = true
        · simp only [hnull, if_true]
          exact hinsert
        · simp only [hnull, if_false, Bool.false_eq_true]
          rw [ih hrest, hget]
          simp [hnull]
    · have hinsert := ih hrest (attrs.insert k x)
      rw [Fields.get?_insert_of_ne (Ne.symm hk)] at hinsert
      simp only [fillMissing, Fields.get?, hk, if_false]
      split
      · split
        · exact hinsert
        · exact ih hrest attrs
      · exact hinsert

theorem get?_applyFields {children : List (String × Defaults)} (h : Fields.Sorted children)
    (attrs : Fields Value) :
    Fields.get? name (applyFields children attrs) =
      (Fields.get? name attrs).map (fill (Fields.get? name children)) := by
  induction children generalizing attrs with
  | nil =>
    simp only [applyFields, Fields.get?]
    exact Option.map_id'.symm
  | cons c rest ih =>
    obtain ⟨k, d⟩ := c
    obtain ⟨hlt, hrest⟩ := List.pairwise_cons.1 h
    have hnone : Fields.get? k rest = none := Fields.get?_eq_none_of_forall_lt hlt
    by_cases hk : k = name
    · subst hk
      simp only [applyFields, Fields.get?, if_true]
      split
      · next v hv => rw [ih hrest, Fields.get?_insert_self, hnone, hv]; rfl
      · next hv => rw [ih hrest, hv]; rfl
    · simp only [applyFields, Fields.get?, hk, if_false]
      split
      · rw [ih hrest, Fields.get?_insert_of_ne (Ne.symm hk)]
      · exact ih hrest attrs

/-! Values of each kind. -/

variable {D : Defaults} {items : List Value} {entries : Fields Value} {e : Ty}

theorem apply_sensitive (hv : v.isMarked = false) : D.apply (.sensitive v) = (D.apply v).mark := by
  obtain ⟨ty, defaults, children⟩ := D
  cases v with
  | sensitive v => cases hv
  | _ => rfl

theorem apply_sequence (hitems : v.items? = some items) (ht : D.ty = .list e ∨ D.ty = .set e) :
    D.apply v =
      if (D.children.map Prod.fst).contains elementKey then
        .tuple (items.map fun v => applyAt elementKey D.children v)
      else v := by
  obtain ⟨ty, defaults, children⟩ := D
  rcases ht with rfl | rfl
  · cases v <;> cases hitems <;> rfl
  · cases v <;> cases hitems <;> rfl

theorem apply_mapping (hentries : v.entries? = some entries) (ht : D.ty = .map e) :
    D.apply v =
      if (D.children.map Prod.fst).contains elementKey then
        .object (entries.map fun e => (e.1, applyAt elementKey D.children e.2))
      else v := by
  obtain ⟨ty, defaults, children⟩ := D
  obtain rfl : ty = .map e := ht
  cases v <;> cases hentries <;> rfl

theorem apply_object {attrs : List (String × Ty)} {optional : Names}
    (hentries : v.entries? = some entries) (ht : D.ty = .object attrs optional) :
    D.apply v = .object (applyFields D.children (fillMissing D.defaults entries)) := by
  obtain ⟨ty, defaults, children⟩ := D
  obtain rfl : ty = .object attrs optional := ht
  cases v <;> cases hentries <;> rfl

/-- Nothing is filled into a value that the type is not about. -/
theorem apply_eq_self (hv : v.isMarked = false)
    (hitems : D.ty.isSequence = true → v.items? = none)
    (hentries : D.ty.isMapping = true → v.entries? = none) : D.apply v = v := by
  have hsome {α : Type} {o : Option α} {a : α} (h : o = none) (ho : o = some a) : False := by
    cases h.symm.trans ho
  obtain ⟨ty, defaults, children⟩ := D
  cases ty <;> cases v <;>
    first | rfl | contradiction | exact (hsome (hitems rfl) rfl).elim |
      exact (hsome (hentries rfl) rfl).elim

theorem isMarked_apply (hv : v.isMarked = false) : (D.apply v).isMarked = false := by
  have hite {c : Bool} {x y : Value} (hx : x.isMarked = false) (hy : y.isMarked = false) :
      (if c then x else y).isMarked = false := by
    split <;> assumption
  obtain ⟨ty, defaults, children⟩ := D
  cases ty <;> cases v <;> first | rfl | contradiction | exact hite rfl rfl

/-- Of two marks directly inside each other only one is taken off. -/
theorem apply_sensitive_sensitive (D : Defaults) (v : Value) :
    D.apply (.sensitive (.sensitive v)) = .sensitive v := by
  obtain ⟨ty, defaults, children⟩ := D
  have hite {c : Bool} {x : Value} : (if c then x else x) = x := ite_self x
  cases ty <;> exact congrArg Value.mark hite

theorem isNull_apply (D : Defaults) (v : Value) : (D.apply v).isNull = v.isNull := by
  have hbare {v : Value} (hv : v.isMarked = false) : (D.apply v).isNull = v.isNull := by
    have hite {c : Bool} {x y : Value} {b : Bool} (hx : x.isNull = b) (hy : y.isNull = b) :
        (if c then x else y).isNull = b := by
      split <;> assumption
    obtain ⟨ty, defaults, children⟩ := D
    cases ty <;> cases v <;> first | rfl | contradiction | exact hite rfl rfl
  cases v with
  | sensitive v =>
    cases hv : v.isMarked with
    | false =>
      rw [apply_sensitive hv, Value.isNull_mark]
      exact hbare hv
    | true =>
      cases v with
      | sensitive v =>
        rw [apply_sensitive_sensitive]
        rfl
      | _ => cases hv
  | _ => exact hbare rfl

end StaticConfig.Defaults

/-!
Defaults that suit a type: they are for this type, and what is filled in deeper suits the types
inside of it. For such defaults the parts of a filled value come from the parts of the value, each
with what is filled in there.
-/
namespace StaticConfig

/-- The second type is inside the first one, where defaults are kept under the name. -/
inductive Ty.Inside : String → Ty → Ty → Prop
  | list {e : Ty} : Inside Defaults.elementKey (.list e) e
  | set {e : Ty} : Inside Defaults.elementKey (.set e) e
  | map {e : Ty} : Inside Defaults.elementKey (.map e) e
  | tuple {i : Nat} {ts : List Ty} {t : Ty} : ts[i]? = some t →
      Inside (toString i) (.tuple ts) t
  | object {name : String} {attrs : Fields Ty} {optional : Names} {t : Ty} :
      Fields.get? name attrs = some t → Inside name (.object attrs optional) t

theorem Ty.Inside.mem_parts {name : String} {t u : Ty} (h : Inside name t u) : u ∈ t.parts := by
  cases h with
  | list => exact List.mem_cons_self
  | set => exact List.mem_cons_self
  | map => exact List.mem_cons_self
  | tuple h => exact List.mem_of_getElem? h
  | object h => exact mem_parts_of_attr? h

namespace Defaults

/-- The defaults are for the type, at every depth. -/
inductive Suits : Option Defaults → Ty → Prop
  | absent {t : Ty} : Suits none t
  | present {D : Defaults} {t : Ty} : D.ty = t → Fields.Sorted D.defaults →
      Fields.Sorted D.children → (∀ p ∈ D.defaults, p.2.MarkedOnce) →
      (∀ name u, t.Inside name u → Suits (Fields.get? name D.children) u) → Suits (some D) t

variable {d : Option Defaults} {v : Value} {items : List Value} {entries : Fields Value}
  {t u e : Ty} {name : String}

theorem fill_sensitive (hv : v.isMarked = false) : fill d (.sensitive v) = (fill d v).mark := by
  cases d with
  | none => exact (Value.mark_of_isMarked_eq_false hv).symm
  | some D => exact apply_sensitive hv

theorem isMarked_fill (hv : v.isMarked = false) : (fill d v).isMarked = false := by
  cases d with
  | none => exact hv
  | some D => exact isMarked_apply hv

/-- Without anything for the elements they stay as they are. -/
theorem get?_eq_none_of_contains {children : List (String × Defaults)}
    (h : ¬ (children.map Prod.fst).contains name = true) : Fields.get? name children = none := by
  cases hget : Fields.get? name children with
  | none => rfl
  | some D => exact absurd (List.contains_iff_mem.2 (Fields.mem_keys_of_get? hget)) h

namespace Suits

theorem inside (h : Suits d t) (hu : t.Inside name u) : Suits (inside name d) u := by
  cases h with
  | absent => exact .absent
  | present _ _ _ _ hchildren => exact hchildren name u hu

theorem markedOnce_ofAttr (h : Suits d t) {a : Value} (ha : ofAttr name d = some a) :
    a.MarkedOnce := by
  cases h with
  | absent => cases ha
  | present _ _ _ hmarked _ => exact hmarked _ (Fields.mem_of_get? ha)

/-- A value that the type is not about stays as it is. -/
theorem fill_eq_self (h : Suits d t) (hv : v.isMarked = false)
    (hitems : t.isSequence = true → v.items? = none)
    (hentries : t.isMapping = true → v.entries? = none) : fill d v = v := by
  cases h with
  | absent => rfl
  | present ht _ _ _ _ => subst ht; exact apply_eq_self hv hitems hentries

theorem items?_fill (h : Suits d t) (ht : t = .list e ∨ t = .set e)
    (hitems : v.items? = some items) :
    (fill d v).items? = some (items.map (fill (Defaults.inside elementKey d))) := by
  cases h with
  | absent => exact hitems.trans (congrArg some (List.map_id items).symm)
  | present htype _ _ _ _ =>
    subst htype
    rw [fill, apply_sequence hitems ht]
    split
    · simp only [applyAt_eq]
      rfl
    · next hnone =>
      rw [Defaults.inside, get?_eq_none_of_contains hnone]
      exact hitems.trans (congrArg some (List.map_id items).symm)

theorem ordered?_fill {ts : List Ty} (h : Suits d (.tuple ts))
    (hitems : v.ordered? = some items) :
    (fill d v).ordered? =
      some (items.mapIdx fun i => fill (Defaults.inside (toString i) d)) := by
  cases h with
  | absent =>
    have hself : items.mapIdx (fun i => fill (Defaults.inside (toString i) none)) = items := by
      refine List.ext_getElem? fun i => ?_
      rw [List.getElem?_mapIdx]
      exact Option.map_id'
    exact hitems.trans (congrArg some hself.symm)
  | @present D _ htype _ _ _ _ =>
    obtain ⟨ty, defaults, children⟩ := D
    obtain rfl : ty = .tuple ts := htype
    have happly : fill (some ⟨.tuple ts, defaults, children⟩) v =
        .tuple (items.mapIdx fun i v => applyAt (toString i) children v) := by
      cases v <;> cases hitems <;> rfl
    rw [happly]
    simp only [applyAt_eq]
    rfl

/-- A set does not stand for a tuple. -/
theorem fill_set {ts : List Ty} (h : Suits d (.tuple ts)) :
    fill d (.set e items) = .set e items := by
  cases h with
  | absent => rfl
  | @present D _ htype _ _ _ _ =>
    obtain ⟨ty, defaults, children⟩ := D
    obtain rfl : ty = .tuple ts := htype
    rfl

theorem entries?_fill_map (h : Suits d (.map e)) (hentries : v.entries? = some entries) :
    (fill d v).entries? =
      some (entries.map fun p => (p.1, fill (Defaults.inside elementKey d) p.2)) := by
  cases h with
  | absent => exact hentries.trans (congrArg some (List.map_id entries).symm)
  | present htype _ _ _ _ =>
    rw [fill, apply_mapping hentries htype]
    split
    · simp only [applyAt_eq]
      rfl
    · next hnone =>
      rw [Defaults.inside, get?_eq_none_of_contains hnone]
      exact hentries.trans (congrArg some (List.map_id entries).symm)

theorem entries?_fill_object {attrs : Fields Ty} {optional : Names}
    (h : Suits d (.object attrs optional)) (hentries : v.entries? = some entries) :
    ∃ filled, (fill d v).entries? = some filled ∧ ∀ name,
      Fields.get? name filled =
        (attrOr d name entries).map (fill (Defaults.inside name d)) := by
  cases h with
  | absent =>
    refine ⟨entries, hentries, fun name => ?_⟩
    have hown : attrOr none name entries = Fields.get? name entries := by
      unfold attrOr ofAttr
      cases Fields.get? name entries <;> simp
    rw [hown]
    exact Option.map_id'.symm
  | @present D _ htype hdefaults hchildren _ _ =>
    refine ⟨_, congrArg Value.entries? (apply_object hentries htype), fun name => ?_⟩
    rw [get?_applyFields hchildren, get?_fillMissing hdefaults]
    rfl

end Suits

end Defaults

end StaticConfig

import StaticConfig.Proofs.Conversion.Converts

/-!
Properties that a value has of the type it was converted to. When the property of a collection
follows from that of its parts, conversion establishes it: the induction over values is made here,
once for all such properties.
-/
namespace StaticConfig.Value

/-- The rules by which a property of converted values passes from the parts to the whole, for
wanted types of a class. Of a collection whose wanted element type contains `dynamic` nothing is
known about the elements. -/
structure Establishes (Q : Ty → Prop) (P : Value → Ty → Prop) : Prop where
  element {t e : Ty} : Q t → t.elementType? = some e → Q e
  position {elems : List Ty} {t : Ty} : Q (.tuple elems) → t ∈ elems → Q t
  attr {attrs : List (String × Ty)} {optional : Names} {name : String} {t : Ty} :
    Q (.object attrs optional) → Fields.get? name attrs = some t → Q t
  dynamic (v : Value) : Q .dynamic → P v .dynamic
  mark {v : Value} {t : Ty} : P v t → P v.mark t
  null {t : Ty} : Q t → P (.null t) t
  unknown {t : Ty} : Q t → P (.unknown t) t
  bool (b : Bool) : P (.bool b) .bool
  number (n : Number) : P (.number n) .number
  string (s : String) : P (.string s) .string
  list {t e : Ty} {items : List Value} : Q (.list e) →
    (e.hasDynamic = false → t = e ∧ ∀ v ∈ items, P v e) → P (.list t items) (.list e)
  set {t e : Ty} {items : List Value} : Q (.set e) →
    (e.hasDynamic = false → t = e ∧ ∀ v ∈ items, P v e) → P (.set t items) (.set e)
  map {t e : Ty} {entries : List (String × Value)} : Q (.map e) →
    (e.hasDynamic = false → t = e ∧ ∀ p ∈ entries, P p.2 e) → P (.map t entries) (.map e)
  tuple {items : List Value} {elems : List Ty} : Q (.tuple elems) →
    items.length = elems.length → (∀ p ∈ items.zip elems, P p.1 p.2) →
      P (.tuple items) (.tuple elems)
  object {fields : List (String × Value)} {attrs : List (String × Ty)} {optional : Names} :
    Q (.object attrs optional) → Fields.keys fields = Fields.keys attrs →
      (∀ name v t, Fields.get? name fields = some v → Fields.get? name attrs = some t → P v t) →
        P (.object fields) (.object attrs optional)

theorem elementTarget_of_static {fault : ConversionFault} {want e : Ty} {found : List Ty}
    (hw : want.hasDynamic = false) (h : elementTarget fault want found = .ok e) : e = want := by
  rw [elementTarget, hw] at h
  exact (Except.ok.inj h).symm

namespace Establishes

variable {Q : Ty → Prop} {P : Value → Ty → Prop}

theorem of_primitive (E : Establishes Q P) {v r : Value} {want : Ty} (hw : Q want)
    (h : convertPrimitive v want = .ok r) : P r want := by
  rcases convertPrimitive_cases h with ⟨rfl, _⟩ | ⟨rfl, b, rfl⟩ | ⟨rfl, n, rfl⟩ | ⟨rfl, s, rfl⟩
  · exact E.dynamic r hw
  · exact E.bool b
  · exact E.number n
  · exact E.string s

theorem of_converts (E : Establishes Q P) {v r : Value} {want : Ty} (hw : Q want)
    (h : Converts v want r) : P r want := by
  induction h with
  | sensitive _ ih => exact E.mark (ih hw)
  | dynamic _ => exact E.dynamic _ hw
  | null _ => exact E.null hw
  | unknown _ _ => exact E.unknown hw
  | primitive _ h => exact E.of_primitive hw h
  | list _ ht hlength _ ih =>
    refine E.list hw fun he => ?_
    obtain rfl := elementTarget_of_static he ht
    have he := E.element hw rfl
    exact ⟨rfl, forall_mem_of_getElem? hlength fun i a r ha hr => ih i a r ha hr he⟩
  | set _ ht hlength _ ih =>
    refine E.set hw fun he => ?_
    obtain rfl := elementTarget_of_static he ht
    have he := E.element hw rfl
    refine ⟨rfl, fun x hx => ?_⟩
    have hmem := (mem_distinctFrom hx).resolve_left List.not_mem_nil
    exact forall_mem_of_getElem? hlength (fun i a r ha hr => ih i a r ha hr he) x hmem
  | @tuple _ items rs ts _ hts hlength _ ih =>
    refine E.tuple hw (hlength.trans hts.symm) fun p hp => ?_
    obtain ⟨i, hi⟩ := List.mem_iff_getElem?.1 hp
    obtain ⟨hr, ht⟩ := List.getElem?_zip_eq_some.1 hi
    obtain ⟨hlt, -⟩ := List.getElem?_eq_some_iff.1 hr
    have ha := List.getElem?_eq_getElem (hlength ▸ hlt : i < items.length)
    exact ih i _ p.2 p.1 ha ht hr (E.position hw (List.mem_of_getElem? ht))
  | map _ ht hkeys _ ih =>
    refine E.map hw fun he => ?_
    obtain rfl := elementTarget_of_static he ht
    have he := E.element hw rfl
    have hlength := Fields.length_eq_of_keys hkeys
    exact ⟨rfl, forall_mem_of_getElem? hlength fun i a r ha hr => ih i a r ha hr he⟩
  | @object _ entries _ _ _ _ hkeys _ hnull ih =>
    refine E.object hw hkeys fun name r t hr ht => ?_
    obtain ⟨i, hq, hp⟩ := Fields.exists_getElem?_of_get? hkeys hr ht
    cases ha : Fields.get? name entries with
    | some a => exact ih i _ _ a t hp hq ha ht (E.attr hw ht)
    | none =>
      obtain rfl := hnull i _ _ hp hq ha
      exact E.null (E.attr hw ht)

theorem of_convert (E : Establishes Q P) (v : Value) {want : Ty} {r : Value} (hw : Q want)
    (h : convert v want = .ok r) : P r want :=
  E.of_converts hw (converts_of_convert v h)

end Establishes

end StaticConfig.Value

/-!
Types that leave nothing open: no part of them is `dynamic`, and no attribute may be left out. A
value that converts to such a type is of this type, and so are the elements of the collections
inside it of the element types that these declare.
-/
namespace StaticConfig

namespace Ty

/-- A type without `dynamic` whose attributes are all required. -/
inductive Definite : Ty → Prop
  | bool : Definite .bool
  | number : Definite .number
  | string : Definite .string
  | list {e : Ty} : Definite e → Definite (.list e)
  | set {e : Ty} : Definite e → Definite (.set e)
  | map {e : Ty} : Definite e → Definite (.map e)
  | tuple {elems : List Ty} : (∀ t ∈ elems, Definite t) → Definite (.tuple elems)
  | object {attrs : List (String × Ty)} : Fields.Sorted attrs → (∀ p ∈ attrs, Definite p.2) →
      Definite (.plainObject attrs)

theorem anyDynamic_of_forall {ts : List Ty} (h : ∀ t ∈ ts, t.hasDynamic = false) :
    anyDynamic ts = false := by
  induction ts with
  | nil => rfl
  | cons t ts ih =>
    obtain ⟨ht, hts⟩ := List.forall_mem_cons.1 h
    simp only [anyDynamic, ht, ih hts, Bool.or_self]

theorem anyFieldDynamic_of_forall {attrs : List (String × Ty)}
    (h : ∀ p ∈ attrs, p.2.hasDynamic = false) : anyFieldDynamic attrs = false := by
  induction attrs with
  | nil => rfl
  | cons p attrs ih =>
    obtain ⟨hp, hattrs⟩ := List.forall_mem_cons.1 h
    simp only [anyFieldDynamic, hp, ih hattrs, Bool.or_self]

theorem Definite.hasDynamic_eq_false {t : Ty} (h : t.Definite) : t.hasDynamic = false := by
  induction h with
  | bool => rfl
  | number => rfl
  | string => rfl
  | list _ ih => exact ih
  | set _ ih => exact ih
  | map _ ih => exact ih
  | tuple _ ih => exact anyDynamic_of_forall ih
  | object _ _ ih => exact anyFieldDynamic_of_forall ih

end Ty

namespace Value

/-- The elements of every collection in the value are of the element type it declares. -/
inductive WellTyped : Value → Prop
  | null {t : Ty} : WellTyped (.null t)
  | unknown {t : Ty} : WellTyped (.unknown t)
  | bool {b : Bool} : WellTyped (.bool b)
  | number {n : Number} : WellTyped (.number n)
  | string {s : String} : WellTyped (.string s)
  | list {e : Ty} {items : List Value} : (∀ v ∈ items, v.ty = e) → (∀ v ∈ items, WellTyped v) →
      WellTyped (.list e items)
  | set {e : Ty} {items : List Value} : (∀ v ∈ items, v.ty = e) → (∀ v ∈ items, WellTyped v) →
      WellTyped (.set e items)
  | map {e : Ty} {entries : List (String × Value)} : (∀ p ∈ entries, p.2.ty = e) →
      (∀ p ∈ entries, WellTyped p.2) → WellTyped (.map e entries)
  | tuple {items : List Value} : (∀ v ∈ items, WellTyped v) → WellTyped (.tuple items)
  | object {attrs : List (String × Value)} : (∀ p ∈ attrs, WellTyped p.2) →
      WellTyped (.object attrs)
  | sensitive {v : Value} : WellTyped v → WellTyped (.sensitive v)

/-- A value of the type whose collections hold what they declare. -/
def HasType (v : Value) (t : Ty) : Prop := v.ty = t ∧ v.WellTyped

theorem HasType.mark {v : Value} {t : Ty} (h : v.HasType t) : v.mark.HasType t := by
  obtain ⟨hty, hv⟩ := h
  cases v with
  | sensitive v => exact ⟨hty, hv⟩
  | _ => exact ⟨hty, .sensitive hv⟩

theorem hasType_unknown (t : Ty) : (unknown t).HasType t := ⟨rfl, .unknown⟩

theorem HasType.of_positions {items : List Value} {elems : List Ty}
    (hlen : items.length = elems.length) (h : ∀ p ∈ items.zip elems, p.1.HasType p.2) :
    types items = elems ∧ ∀ v ∈ items, v.WellTyped := by
  induction items generalizing elems with
  | nil =>
    have helems : elems = [] := List.length_eq_zero_iff.1 hlen.symm
    exact ⟨helems.symm, List.forall_mem_nil _⟩
  | cons v vs ih =>
    cases elems with
    | nil => cases hlen
    | cons t ts =>
      obtain ⟨hv, hvs⟩ := List.forall_mem_cons.1 h
      obtain ⟨hty, hwell⟩ := ih (Nat.succ.inj hlen) hvs
      exact ⟨by rw [types, hv.1, hty], List.forall_mem_cons.2 ⟨hv.2, hwell⟩⟩

theorem HasType.of_related {fields : Fields Value} {attrs : Fields Ty}
    (h : Fields.Related HasType fields attrs) :
    fieldTypes fields = attrs ∧ ∀ p ∈ fields, p.2.WellTyped := by
  induction h with
  | nil => exact ⟨rfl, List.forall_mem_nil _⟩
  | cons hv _ ih =>
    obtain ⟨hty, hwell⟩ := ih
    exact ⟨by rw [fieldTypes, hv.1, hty], List.forall_mem_cons.2 ⟨hv.2, hwell⟩⟩

/-- Conversion to a type that leaves nothing open gives a value of this type. -/
theorem establishes_hasType : Establishes Ty.Definite HasType where
  element hw he := by
    cases hw with
    | list h => cases he; exact h
    | set h => cases he; exact h
    | map h => cases he; exact h
    | _ => cases he
  position hw ht := by
    cases hw with
    | tuple h => exact h _ ht
  attr hw ht := by
    cases hw with
    | object _ h => exact h _ (Fields.mem_of_get? ht)
  dynamic _ hw := by cases hw
  mark := HasType.mark
  null _ := ⟨rfl, .null⟩
  unknown _ := hasType_unknown _
  bool _ := ⟨rfl, .bool⟩
  number _ := ⟨rfl, .number⟩
  string _ := ⟨rfl, .string⟩
  list hw h := by
    cases hw with
    | list he =>
      obtain ⟨rfl, hitems⟩ := h he.hasDynamic_eq_false
      exact ⟨rfl, .list (fun v hv => (hitems v hv).1) fun v hv => (hitems v hv).2⟩
  set hw h := by
    cases hw with
    | set he =>
      obtain ⟨rfl, hitems⟩ := h he.hasDynamic_eq_false
      exact ⟨rfl, .set (fun v hv => (hitems v hv).1) fun v hv => (hitems v hv).2⟩
  map hw h := by
    cases hw with
    | map he =>
      obtain ⟨rfl, hentries⟩ := h he.hasDynamic_eq_false
      exact ⟨rfl, .map (fun p hp => (hentries p hp).1) fun p hp => (hentries p hp).2⟩
  tuple _ hlen h := by
    obtain ⟨hty, hwell⟩ := HasType.of_positions hlen h
    exact ⟨congrArg Ty.tuple hty, .tuple hwell⟩
  object hw hkeys h := by
    cases hw with
    | object hsorted _ =>
      obtain ⟨hty, hwell⟩ := HasType.of_related (Fields.Related.of_get? hsorted hkeys h)
      exact ⟨congrArg Ty.plainObject hty, .object hwell⟩

theorem hasType_of_convert {v r : Value} {want : Ty} (hw : want.Definite)
    (h : convert v want = .ok r) : r.HasType want :=
  establishes_hasType.of_convert v hw h

end Value
end StaticConfig

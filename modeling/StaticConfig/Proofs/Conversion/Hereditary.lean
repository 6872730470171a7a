import StaticConfig.Proofs.Conversion.Converts

/-!
Properties of all parts of a value, such as being known or having no mark. Conversion keeps them:
it makes up no values but nulls.
-/
namespace StaticConfig.Value

/-- The property holds of a collection exactly when it holds of all its parts. -/
structure Partwise (P : Value → Prop) : Prop where
  list {e : Ty} {items : List Value} : P (.list e items) ↔ ∀ v ∈ items, P v
  set {e : Ty} {items : List Value} : P (.set e items) ↔ ∀ v ∈ items, P v
  tuple {items : List Value} : P (.tuple items) ↔ ∀ v ∈ items, P v
  map {e : Ty} {entries : Fields Value} : P (.map e entries) ↔ ∀ p ∈ entries, P p.2
  object {attrs : Fields Value} : P (.object attrs) ↔ ∀ p ∈ attrs, P p.2
  inner {v : Value} : P (.sensitive v) → P v

/-- Besides, the property holds of all nulls and primitive values, and whether it holds of an
unknown value does not depend on the type. -/
structure Hereditary (P : Value → Prop) : Prop extends Partwise P where
  null (t : Ty) : P (.null t)
  bool (b : Bool) : P (.bool b)
  number (n : Number) : P (.number n)
  string (s : String) : P (.string s)
  unknown {t : Ty} (u : Ty) : P (.unknown t) → P (.unknown u)
  mark {v w : Value} : P (.sensitive v) → P w → P w.mark

variable {P : Value → Prop}

namespace Partwise

theorem setOf (H : Partwise P) {e : Ty} {items : List Value} (h : ∀ v ∈ items, P v) :
    P (setOf e items) := by
  refine H.set.2 fun v hv => ?_
  rcases mem_distinctFrom hv with hv | hv
  · cases hv
  · exact h v hv

theorem items? (H : Partwise P) {v : Value} {items : List Value} (hv : P v)
    (h : v.items? = some items) : ∀ x ∈ items, P x := by
  cases v with
  | list e vs => cases h; exact H.list.1 hv
  | set e vs => cases h; exact H.set.1 hv
  | tuple vs => cases h; exact H.tuple.1 hv
  | _ => cases h

theorem of_items? (H : Partwise P) {v : Value} {items : List Value}
    (h : v.items? = some items) (hitems : ∀ x ∈ items, P x) : P v := by
  cases v with
  | list e vs => cases h; exact H.list.2 hitems
  | set e vs => cases h; exact H.set.2 hitems
  | tuple vs => cases h; exact H.tuple.2 hitems
  | _ => cases h

theorem entries? (H : Partwise P) {v : Value} {entries : Fields Value} (hv : P v)
    (h : v.entries? = some entries) : ∀ p ∈ entries, P p.2 := by
  cases v with
  | map e fields => cases h; exact H.map.1 hv
  | object fields => cases h; exact H.object.1 hv
  | _ => cases h

mutual

theorem bare (H : Partwise P) : ∀ v : Value, P v → P v.bare
  | .sensitive v, hv => H.bare v (H.inner hv)
  | .null _, hv | .unknown _, hv | .bool _, hv | .number _, hv | .string _, hv => hv
  | .list _ items, hv => H.list.2 (H.bareAll items (H.list.1 hv))
  | .set _ items, hv => H.setOf (H.bareAll items (H.set.1 hv))
  | .tuple items, hv => H.tuple.2 (H.bareAll items (H.tuple.1 hv))
  | .map _ entries, hv => H.map.2 (H.bareFields entries (H.map.1 hv))
  | .object attrs, hv => H.object.2 (H.bareFields attrs (H.object.1 hv))

theorem bareAll (H : Partwise P) :
    ∀ vs : List Value, (∀ v ∈ vs, P v) → ∀ v ∈ bareAll vs, P v
  | [], _, _, hv => nomatch hv
  | u :: us, h, v, hv => by
    rcases List.mem_cons.1 hv with rfl | hv
    · exact H.bare u (h u List.mem_cons_self)
    · exact H.bareAll us (fun x hx => h x (List.mem_cons_of_mem u hx)) v hv

theorem bareFields (H : Partwise P) : ∀ fields : List (String × Value),
    (∀ p ∈ fields, P p.2) → ∀ p ∈ bareFields fields, P p.2
  | [], _, _, hp => nomatch hp
  | (k, u) :: rest, h, p, hp => by
    rcases List.mem_cons.1 hp with rfl | hp
    · exact H.bare u (h (k, u) List.mem_cons_self)
    · exact H.bareFields rest (fun q hq => h q (List.mem_cons_of_mem _ hq)) p hp

end

end Partwise

namespace Hereditary

theorem convertPrimitive (H : Hereditary P) {v r : Value} {want : Ty} (hv : P v)
    (h : convertPrimitive v want = .ok r) : P r := by
  rcases convertPrimitive_cases h with ⟨_, rfl⟩ | ⟨_, b, rfl⟩ | ⟨_, n, rfl⟩ | ⟨_, s, rfl⟩
  · exact hv
  · exact H.bool b
  · exact H.number n
  · exact H.string s

theorem of_converts (H : Hereditary P) {v r : Value} {want : Ty} (hv : P v)
    (h : Converts v want r) : P r := by
  induction h with
  | sensitive _ ih => exact H.mark hv (ih (H.inner hv))
  | dynamic _ => exact hv
  | null _ => exact H.null _
  | unknown _ _ => exact H.unknown _ hv
  | primitive _ h => exact H.convertPrimitive hv h
  | list hitems _ hlength _ ih =>
    have hitem := H.items? hv hitems
    exact H.list.2 (forall_mem_of_getElem? hlength fun i a r ha hr =>
      ih i a r ha hr (hitem a (List.mem_of_getElem? ha)))
  | set hitems _ hlength _ ih =>
    have hitem := H.items? hv hitems
    exact H.setOf (forall_mem_of_getElem? hlength fun i a r ha hr =>
      ih i a r ha hr (hitem a (List.mem_of_getElem? ha)))
  | tuple hitems hts hlength _ ih =>
    have hitem := H.items? hv hitems
    refine H.tuple.2 (forall_mem_of_getElem? hlength fun i a r ha hr => ?_)
    obtain ⟨hlt, -⟩ := List.getElem?_eq_some_iff.1 ha
    have ht := List.getElem?_eq_getElem (hts ▸ hlt)
    exact ih i a _ r ha ht hr (hitem a (List.mem_of_getElem? ha))
  | map hentries _ hkeys _ ih =>
    have hentry := H.entries? hv hentries
    exact H.map.2 (forall_mem_of_getElem? (Fields.length_eq_of_keys hkeys) fun i a r ha hr =>
      ih i a r ha hr (hentry a (List.mem_of_getElem? ha)))
  | @object _ entries fields attrs _ hentries hkeys _ hnull ih =>
    have hentry := H.entries? hv hentries
    have hlength := Fields.length_eq_of_keys hkeys
    refine H.object.2 (forall_mem_of_getElem? hlength fun i p q hp hq => ?_)
    cases ha : Fields.get? p.1 entries with
    | some a =>
      obtain ⟨t, ht⟩ := Fields.exists_get?_of_mem_keys
        (List.mem_map_of_mem (List.mem_of_getElem? hp))
      exact ih i p q a t hp hq ha ht (hentry _ (Fields.mem_of_get? ha))
    | none =>
      rw [hnull i p q hp hq ha]
      exact H.null p.2

theorem convert (H : Hereditary P) (v : Value) {want : Ty} {r : Value} (hv : P v)
    (h : convert v want = .ok r) : P r :=
  H.of_converts hv (converts_of_convert v h)

end Hereditary

/-! Instances, and marks taken off. -/

theorem allKnown_iff {vs : List Value} :
    allKnown vs = true ↔ ∀ v ∈ vs, v.isWhollyKnown = true := by
  induction vs with
  | nil => simp [allKnown]
  | cons v vs ih => simp [allKnown, ih]

theorem allFieldsKnown_iff {fields : Fields Value} :
    allFieldsKnown fields = true ↔ ∀ p ∈ fields, p.2.isWhollyKnown = true := by
  induction fields with
  | nil => simp [allFieldsKnown]
  | cons e rest ih => simp only [allFieldsKnown, Bool.and_eq_true, ih, List.forall_mem_cons]

theorem anyMark_iff {vs : List Value} : anyMark vs = false ↔ ∀ v ∈ vs, v.hasMark = false := by
  induction vs with
  | nil => simp [anyMark]
  | cons v vs ih => simp [anyMark, ih]

theorem anyFieldMark_iff {fields : Fields Value} :
    anyFieldMark fields = false ↔ ∀ p ∈ fields, p.2.hasMark = false := by
  induction fields with
  | nil => simp [anyFieldMark]
  | cons e rest ih => simp only [anyFieldMark, Bool.or_eq_false_iff, ih, List.forall_mem_cons]

namespace Hereditary

theorem whollyKnown : Hereditary fun v => v.isWhollyKnown = true where
  null _ := rfl
  bool _ := rfl
  number _ := rfl
  string _ := rfl
  unknown _ h := nomatch h
  list := allKnown_iff
  set := allKnown_iff
  tuple := allKnown_iff
  map := allFieldsKnown_iff
  object := allFieldsKnown_iff
  inner h := h
  mark {_ w} _ h := by cases w <;> exact h

theorem unmarked : Hereditary fun v => v.hasMark = false where
  null _ := rfl
  bool _ := rfl
  number _ := rfl
  string _ := rfl
  unknown _ _ := rfl
  list := anyMark_iff
  set := anyMark_iff
  tuple := anyMark_iff
  map := anyFieldMark_iff
  object := anyFieldMark_iff
  inner h := nomatch h
  mark h := nomatch h

end Hereditary

theorem isKnown_of_isWhollyKnown : ∀ {v : Value}, v.isWhollyKnown = true → v.isKnown = true
  | .sensitive v, h => by
    show v.isKnown = true
    exact isKnown_of_isWhollyKnown h
  | .null _, _ | .bool _, _ | .number _, _ | .string _, _ => rfl
  | .list _ _, _ | .set _ _, _ | .map _ _, _ | .tuple _, _ | .object _, _ => rfl

/-! Taking marks off leaves none. -/

mutual

theorem hasMark_bare : ∀ v : Value, v.bare.hasMark = false
  | .sensitive v => hasMark_bare v
  | .null _ | .unknown _ | .bool _ | .number _ | .string _ => rfl
  | .list _ items => anyMark_iff.2 (hasMark_bareAll items)
  | .set _ items => Hereditary.unmarked.setOf (hasMark_bareAll items)
  | .tuple items => anyMark_iff.2 (hasMark_bareAll items)
  | .map _ entries => anyFieldMark_iff.2 (hasMark_bareFields entries)
  | .object attrs => anyFieldMark_iff.2 (hasMark_bareFields attrs)

theorem hasMark_bareAll : ∀ vs : List Value, ∀ v ∈ bareAll vs, v.hasMark = false
  | [], _, hv => nomatch hv
  | u :: us, v, hv => by
    rcases List.mem_cons.1 hv with rfl | hv
    · exact hasMark_bare u
    · exact hasMark_bareAll us v hv

theorem hasMark_bareFields : ∀ fields : List (String × Value),
    ∀ p ∈ bareFields fields, p.2.hasMark = false
  | [], _, hp => nomatch hp
  | (_, u) :: rest, p, hp => by
    rcases List.mem_cons.1 hp with rfl | hp
    · exact hasMark_bare u
    · exact hasMark_bareFields rest p hp

end

end StaticConfig.Value

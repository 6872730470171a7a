import StaticConfig.Proofs.Conversion.Hereditary
import StaticConfig.Proofs.Unification.Convertible

/-!
Values in which no mark stands directly inside another one. All values of a configuration are so:
what is marked twice is marked once, and conversion to a type without `dynamic` gives no others,
whatever it is given.
-/
namespace StaticConfig.Value

inductive MarkedOnce : Value → Prop
  | null {t : Ty} : MarkedOnce (.null t)
  | unknown {t : Ty} : MarkedOnce (.unknown t)
  | bool {b : Bool} : MarkedOnce (.bool b)
  | number {n : Number} : MarkedOnce (.number n)
  | string {s : String} : MarkedOnce (.string s)
  | list {e : Ty} {items : List Value} : (∀ v ∈ items, MarkedOnce v) → MarkedOnce (.list e items)
  | set {e : Ty} {items : List Value} : (∀ v ∈ items, MarkedOnce v) → MarkedOnce (.set e items)
  | map {e : Ty} {entries : Fields Value} : (∀ p ∈ entries, MarkedOnce p.2) →
      MarkedOnce (.map e entries)
  | tuple {items : List Value} : (∀ v ∈ items, MarkedOnce v) → MarkedOnce (.tuple items)
  | object {attrs : Fields Value} : (∀ p ∈ attrs, MarkedOnce p.2) → MarkedOnce (.object attrs)
  | sensitive {v : Value} : v.isMarked = false → MarkedOnce v → MarkedOnce (.sensitive v)

variable {v r : Value}

theorem MarkedOnce.mark (h : v.MarkedOnce) : v.mark.MarkedOnce := by
  cases hm : v.isMarked with
  | false =>
    rw [mark_of_isMarked_eq_false hm]
    exact .sensitive hm h
  | true => rwa [mark_of_isMarked hm]

theorem MarkedOnce.inner (h : MarkedOnce (.sensitive v)) : v.isMarked = false ∧ v.MarkedOnce := by
  cases h with
  | sensitive hm hv => exact ⟨hm, hv⟩

theorem Hereditary.markedOnce : Hereditary MarkedOnce where
  null _ := .null
  bool _ := .bool
  number _ := .number
  string _ := .string
  unknown _ _ := .unknown
  list := ⟨fun h => by cases h; assumption, .list⟩
  set := ⟨fun h => by cases h; assumption, .set⟩
  tuple := ⟨fun h => by cases h; assumption, .tuple⟩
  map := ⟨fun h => by cases h; assumption, .map⟩
  object := ⟨fun h => by cases h; assumption, .object⟩
  inner h := (MarkedOnce.inner h).2
  mark _ h := h.mark

/-- A conversion that asks for a type marks nothing twice. -/
theorem establishes_markedOnce : Establishes Ty.Static fun v _ => v.MarkedOnce where
  element h ht := h.part (Ty.mem_parts_of_elementType? ht)
  position h ht := h.part ht
  attr h ht := h.part (Ty.mem_parts_of_attr? ht)
  dynamic _ h := absurd rfl h.ne_dynamic
  mark h := h.mark
  null _ := .null
  unknown _ := .unknown
  bool _ := .bool
  number _ := .number
  string _ := .string
  list h hparts := .list (hparts (h.part List.mem_cons_self).known).2
  set h hparts := .set (hparts (h.part List.mem_cons_self).known).2
  map h hparts := .map (hparts (h.part List.mem_cons_self).known).2
  tuple {items elems} _ hlength hparts := by
    refine .tuple fun v hv => ?_
    obtain ⟨i, hi, rfl⟩ := List.mem_iff_getElem.1 hv
    have hmem : (items[i], elems[i]) ∈ items.zip elems :=
      List.mem_iff_getElem.2 ⟨i, by rw [List.length_zip]; omega, List.getElem_zip⟩
    exact hparts _ hmem
  object {fields attrs} _ h hkeys hparts := by
    have hsorted : Fields.Sorted fields := (Fields.sorted_iff_keys fields).2 (hkeys ▸ h.names)
    refine .object fun p hp => ?_
    have hname : p.1 ∈ Fields.keys fields := List.mem_map_of_mem hp
    obtain ⟨t, ht⟩ := Fields.exists_get?_of_mem_keys (hkeys ▸ hname)
    exact hparts p.1 p.2 t (Fields.get?_of_mem hsorted hp) ht

theorem markedOnce_of_convert {want : Ty} (hw : want.Static) (h : v.convert want = .ok r) :
    r.MarkedOnce :=
  establishes_markedOnce.of_convert v hw h

end StaticConfig.Value

import StaticConfig.Proofs.Conversion.Target
import StaticConfig.Proofs.Unification.Rules

/-!
The type that is found for several types without `dynamic` has no `dynamic` either, and each of them
converts to it: not only may some values of the type convert, but every value does. Markers of
optional attributes do not count.
-/
namespace StaticConfig.Ty

/-- The names of attributes are in order, at every depth, as in the maps that hold them. -/
inductive Ordered : Ty → Prop
  | intro {t : Ty} : t.attrNames.Pairwise (· < ·) → (∀ u ∈ t.parts, Ordered u) → Ordered t

/-- A type without `dynamic`. -/
structure Static (t : Ty) : Prop where
  known : t.hasDynamic = false
  ordered : t.Ordered

/-- The types are the same up to markers of optional attributes. -/
def Like (t u : Ty) : Prop := t.allRequired = u.allRequired

/-- All values of the first type convert to the second one. -/
inductive ConvertsTo : Ty → Ty → Prop
  | bool : ConvertsTo .bool .bool
  | number : ConvertsTo .number .number
  | string {t : Ty} : t.isPrimitive = true → ConvertsTo t .string
  | list {t e : Ty} : t.isSequence = true → (∀ u ∈ t.parts, ConvertsTo u e) →
    ConvertsTo t (.list e)
  | set {t e : Ty} : ConvertsTo t e → ConvertsTo (.set t) (.set e)
  | tuple {ts wants : List Ty} : ts.length = wants.length →
    (∀ p ∈ ts.zip wants, ConvertsTo p.1 p.2) → ConvertsTo (.tuple ts) (.tuple wants)
  | map {t e : Ty} : t.isMapping = true → (∀ u ∈ t.parts, ConvertsTo u e) → ConvertsTo t (.map e)
  | object {t : Ty} {attrs : List (String × Ty)} {optional : Names} : t.isObject = true →
    t.attrNames = Fields.keys attrs → (∀ name u want, attr? name t = some u →
      Fields.get? name attrs = some want → ConvertsTo u want) → ConvertsTo t (.object attrs optional)

/-! Types and the types inside of them. -/

theorem anyDynamic_eq_any (ts : List Ty) : anyDynamic ts = ts.any hasDynamic := by
  induction ts with
  | nil => rfl
  | cons t ts ih => rw [anyDynamic, List.any_cons, ih]

theorem anyFieldDynamic_eq_any (attrs : List (String × Ty)) :
    anyFieldDynamic attrs = (Fields.values attrs).any hasDynamic := by
  induction attrs with
  | nil => rfl
  | cons a attrs ih =>
    rw [anyFieldDynamic, ih]
    rfl

theorem hasDynamic_eq_false_iff {t : Ty} :
    t.hasDynamic = false ↔ t ≠ dynamic ∧ ∀ u ∈ t.parts, u.hasDynamic = false := by
  cases t with
  | dynamic => simp [hasDynamic]
  | bool => simp [hasDynamic, parts]
  | number => simp [hasDynamic, parts]
  | string => simp [hasDynamic, parts]
  | list e => simp [hasDynamic, parts]
  | set e => simp [hasDynamic, parts]
  | map e => simp [hasDynamic, parts]
  | tuple elems => simp [hasDynamic, parts, anyDynamic_eq_any]
  | object attrs optional => simp [hasDynamic, parts, anyFieldDynamic_eq_any]

theorem size_lt_of_mem_parts {t u : Ty} (h : u ∈ t.parts) : u.size < t.size :=
  Nat.lt_of_le_of_lt (size_le_sizeAll h) (sizeAll_parts_lt t)

theorem mem_parts_of_attr? {name : String} {t u : Ty} (h : attr? name t = some u) :
    u ∈ t.parts := by
  cases t with
  | object attrs optional => exact List.mem_map_of_mem (Fields.mem_of_get? h)
  | _ => cases h

theorem exists_attr?_of_mem {name : String} {t : Ty} (h : name ∈ t.attrNames) :
    ∃ u, attr? name t = some u := by
  cases t with
  | object attrs optional => exact Fields.exists_get?_of_mem_keys h
  | _ => cases h

namespace Static

theorem ne_dynamic {t : Ty} (h : t.Static) : t ≠ dynamic :=
  (hasDynamic_eq_false_iff.1 h.known).1

theorem part {t u : Ty} (h : t.Static) (hu : u ∈ t.parts) : u.Static := by
  obtain ⟨-, hparts⟩ := h.ordered
  exact ⟨(hasDynamic_eq_false_iff.1 h.known).2 u hu, hparts u hu⟩

theorem names {t : Ty} (h : t.Static) : t.attrNames.Pairwise (· < ·) := by
  obtain ⟨hnames, -⟩ := h.ordered
  exact hnames

theorem of_parts {t : Ty} (hne : t ≠ dynamic) (hnames : t.attrNames.Pairwise (· < ·))
    (hparts : ∀ u ∈ t.parts, u.Static) : t.Static := by
  refine ⟨hasDynamic_eq_false_iff.2 ⟨hne, fun u hu => (hparts u hu).known⟩, ?_⟩
  exact .intro hnames fun u hu => (hparts u hu).ordered

end Static

theorem allRequiredList_eq_map (ts : List Ty) : allRequiredList ts = ts.map allRequired := by
  induction ts with
  | nil => rfl
  | cons t ts ih => rw [allRequiredList, ih, List.map_cons]

theorem allRequiredFields_eq_mapValues (attrs : Fields Ty) :
    allRequiredFields attrs = attrs.mapValues allRequired := by
  induction attrs with
  | nil => rfl
  | cons a attrs ih =>
    rw [allRequiredFields, ih]
    rfl

theorem parts_allRequired (t : Ty) : t.allRequired.parts = t.parts.map allRequired := by
  cases t with
  | tuple elems => exact allRequiredList_eq_map elems
  | object attrs optional =>
    simp [allRequired, plainObject, parts, allRequiredFields_eq_mapValues, Fields.values,
      Fields.mapValues]
  | _ => rfl

theorem attrNames_allRequired (t : Ty) : t.allRequired.attrNames = t.attrNames := by
  cases t with
  | object attrs optional =>
    rw [allRequired, allRequiredFields_eq_mapValues]
    exact Fields.keys_mapValues allRequired attrs
  | _ => rfl

theorem attr?_allRequired (name : String) (t : Ty) :
    attr? name t.allRequired = (attr? name t).map allRequired := by
  cases t with
  | object attrs optional =>
    rw [allRequired, allRequiredFields_eq_mapValues]
    exact Fields.get?_mapValues allRequired name attrs
  | _ => rfl

/-- Types that are the same up to markers are of the same class. -/
theorem Like.class_eq {p : Ty → Bool} (hp : ∀ t, p t.allRequired = p t) {t u : Ty} (h : t.Like u) :
    p t = p u := by
  rw [← hp t, ← hp u]
  exact congrArg p h

theorem isPrimitive_allRequired (t : Ty) : t.allRequired.isPrimitive = t.isPrimitive := by
  cases t <;> rfl

theorem isSequence_allRequired (t : Ty) : t.allRequired.isSequence = t.isSequence := by
  cases t <;> rfl

theorem isMapping_allRequired (t : Ty) : t.allRequired.isMapping = t.isMapping := by
  cases t <;> rfl

theorem isObject_allRequired (t : Ty) : t.allRequired.isObject = t.isObject := by
  cases t <;> rfl

theorem Like.exists_part {t u x : Ty} (h : t.Like u) (hx : x ∈ t.parts) :
    ∃ y ∈ u.parts, x.Like y := by
  have hparts : t.parts.map allRequired = u.parts.map allRequired := by
    rw [← parts_allRequired, ← parts_allRequired]
    exact congrArg parts h
  have hmem : x.allRequired ∈ u.parts.map allRequired := hparts ▸ List.mem_map_of_mem hx
  obtain ⟨y, hy, hlike⟩ := List.mem_map.1 hmem
  exact ⟨y, hy, hlike.symm⟩

theorem Like.exists_attr {t u x : Ty} {name : String} (h : t.Like u) (hx : attr? name t = some x) :
    ∃ y, attr? name u = some y ∧ x.Like y := by
  have hattr : (attr? name t).map allRequired = (attr? name u).map allRequired := by
    rw [← attr?_allRequired, ← attr?_allRequired]
    exact congrArg (attr? name) h
  rw [hx] at hattr
  obtain ⟨y, hy, hlike⟩ := Option.map_eq_some_iff.1 hattr.symm
  exact ⟨y, hy, hlike.symm⟩

theorem Like.attrNames_eq {t u : Ty} (h : t.Like u) : t.attrNames = u.attrNames := by
  rw [← attrNames_allRequired t, ← attrNames_allRequired u]
  exact congrArg attrNames h

namespace ConvertsTo

theorem refl {t : Ty} (h : t.Static) : ConvertsTo t t := by
  have hpart (u : Ty) (hu : u ∈ t.parts) : ConvertsTo u u := refl (h.part hu)
  cases t with
  | dynamic => exact absurd rfl h.ne_dynamic
  | bool => exact .bool
  | number => exact .number
  | string => exact .string rfl
  | list e =>
    refine .list rfl fun u hu => ?_
    rw [List.mem_singleton.1 hu]
    exact hpart e List.mem_cons_self
  | set e => exact .set (hpart e List.mem_cons_self)
  | map e =>
    refine .map rfl fun u hu => ?_
    rw [List.mem_singleton.1 hu]
    exact hpart e List.mem_cons_self
  | tuple elems =>
    refine .tuple rfl fun p hp => ?_
    have hself : elems.zip elems = elems.map fun t => (t, t) := by
      rw [List.zip_eq_zipWith, List.zipWith_self]
    obtain ⟨u, hu, rfl⟩ := List.mem_map.1 (hself ▸ hp)
    exact hpart u hu
  | object attrs optional =>
    refine .object rfl rfl fun name u want hu hwant => ?_
    have hsame : u = want := Option.some.inj (hu.symm.trans hwant)
    rw [← hsame]
    exact hpart u (mem_parts_of_attr? hu)
termination_by t.size
decreasing_by exact size_lt_of_mem_parts hu

/-- Whether all values convert does not depend on markers of optional attributes. -/
theorem of_like {t u want : Ty} (h : ConvertsTo u want) (hlike : t.Like u) :
    ConvertsTo t want := by
  induction h generalizing t with
  | bool => cases t <;> cases hlike; exact .bool
  | number => cases t <;> cases hlike; exact .number
  | string hprimitive =>
    exact .string ((hlike.class_eq isPrimitive_allRequired).trans hprimitive)
  | list hsequence _ ih =>
    refine .list ((hlike.class_eq isSequence_allRequired).trans hsequence) fun x hx => ?_
    obtain ⟨y, hy, hxy⟩ := hlike.exists_part hx
    exact ih y hy hxy
  | set _ ih =>
    cases t with
    | set e => exact .set (ih (set.inj hlike))
    | _ => cases hlike
  | @tuple us wants hlength _ ih =>
    cases t with
    | tuple ts =>
      have hmap : ts.map allRequired = us.map allRequired := by
        rw [← allRequiredList_eq_map, ← allRequiredList_eq_map]
        exact tuple.inj hlike
      have hlengths := congrArg List.length hmap
      rw [List.length_map, List.length_map] at hlengths
      refine .tuple (hlengths.trans hlength) fun p hp => ?_
      have hmem : (p.1.allRequired, p.2) ∈ (us.map allRequired).zip wants := by
        rw [← hmap, List.zip_map_left]
        exact List.mem_map.2 ⟨p, hp, rfl⟩
      rw [List.zip_map_left] at hmem
      obtain ⟨q, hq, hpq⟩ := List.mem_map.1 hmem
      obtain ⟨hfirst, hsecond⟩ := Prod.mk.inj hpq
      have hsame : q.2 = p.2 := hsecond
      rw [← hsame]
      exact ih q hq hfirst.symm
    | _ => cases hlike
  | map hmapping _ ih =>
    refine .map ((hlike.class_eq isMapping_allRequired).trans hmapping) fun x hx => ?_
    obtain ⟨y, hy, hxy⟩ := hlike.exists_part hx
    exact ih y hy hxy
  | object hobject hnames _ ih =>
    refine .object ((hlike.class_eq isObject_allRequired).trans hobject)
      (hlike.attrNames_eq.trans hnames) fun name x want hx hwant => ?_
    obtain ⟨y, hy, hxy⟩ := hlike.exists_attr hx
    exact ih name y want hy hwant hxy

theorem mayConvert {t want : Ty} (h : ConvertsTo t want) : t.mayConvert want = true := by
  rw [Ty.mayConvert, Bool.or_eq_true, Bool.or_eq_true, Bool.or_eq_true]
  cases h with
  | bool => exact .inl (.inl (.inr rfl))
  | number => exact .inl (.inl (.inr rfl))
  | string hprimitive => exact .inl (.inl (.inr (Bool.and_eq_true_iff.2 ⟨hprimitive, rfl⟩)))
  | list hsequence _ => exact .inl (.inr (Bool.and_eq_true_iff.2 ⟨hsequence, rfl⟩))
  | set _ => exact .inl (.inr rfl)
  | tuple _ _ => exact .inl (.inr rfl)
  | map hmapping _ => exact .inr (Bool.and_eq_true_iff.2 ⟨hmapping, rfl⟩)
  | object hobject _ _ =>
    exact .inr (Bool.and_eq_true_iff.2 ⟨isMapping_of_isObject hobject, rfl⟩)

end ConvertsTo

/-! The parts of types that differ. -/

theorem Mixed.parts_ne_nil {ts : List Ty} (h : Mixed ts)
    (hsequence : ∀ t ∈ ts, t.isSequence = true) :
    ts.flatMap parts ≠ [] := by
  intro hnil
  obtain ⟨t, ht, hne⟩ := h.differ (tuple [])
  have hparts : t.parts = [] := List.flatMap_eq_nil_iff.1 hnil t ht
  have hclass := hsequence t ht
  cases t with
  | list e => cases hparts
  | set e => cases hparts
  | tuple elems => exact hne (congrArg tuple hparts)
  | _ => cases hclass

/-- Only objects without attributes have no parts. -/
theorem parts_ne_nil_of_mapping {ts : List Ty} (hmapping : ∀ t ∈ ts, t.isMapping = true)
    (hother : ∀ names, ¬ObjectsOf names ts) : ts.flatMap parts ≠ [] := by
  intro hnil
  refine hother [] fun t ht => ?_
  have hparts : t.parts = [] := List.flatMap_eq_nil_iff.1 hnil t ht
  have hclass := hmapping t ht
  cases t with
  | map e => cases hparts
  | object attrs optional =>
    have hattrs : attrs = [] := List.map_eq_nil_iff.1 hparts
    rw [hattrs]
    exact ⟨rfl, rfl⟩
  | _ => cases hclass

/-- What is unified converts to the type that is found. -/
theorem Unified.convertsTo {ts : List Ty} {want : Ty} (h : Unified ts want) (hne : ts ≠ [])
    (hts : ∀ t ∈ ts, t.Static) : want.Static ∧ ∀ t ∈ ts, ConvertsTo t want := by
  have hparts {ts : List Ty} (hts : ∀ t ∈ ts, t.Static) : ∀ u ∈ ts.flatMap parts, u.Static := by
    intro u hu
    obtain ⟨t, ht, hu⟩ := List.mem_flatMap.1 hu
    exact (hts t ht).part hu
  induction h with
  | none => exact absurd rfl hne
  | dynamic hmem => exact absurd rfl (hts _ hmem).ne_dynamic
  | @equal ts t hmem _ hequal =>
    refine ⟨hts t hmem, fun u hu => ?_⟩
    rw [hequal u hu]
    exact .refl (hts t hmem)
  | primitive _ hprimitive =>
    exact ⟨.of_parts nofun .nil nofun, fun t ht => .string (hprimitive t ht)⟩
  | @sequence ts e hmixed hsequence _ ih =>
    obtain ⟨he, hreach⟩ := ih (hmixed.parts_ne_nil hsequence) (hparts hts)
    refine ⟨.of_parts nofun .nil (List.forall_mem_singleton.2 he), fun t ht => ?_⟩
    exact .list (hsequence t ht) fun u hu => hreach u (List.mem_flatMap.2 ⟨t, ht, hu⟩)
  | @object ts attrs hmixed hobjects _ ih =>
    have hattr (a : String × Ty) (ha : a ∈ attrs) {t u : Ty} (ht : t ∈ ts)
        (hu : attr? a.1 t = some u) : a.2.Static ∧ ConvertsTo u a.2 := by
      have hmem : u ∈ ts.filterMap (attr? a.1) := List.mem_filterMap.2 ⟨t, ht, hu⟩
      obtain ⟨ha, hreach⟩ := ih a ha (List.ne_nil_of_mem hmem) fun x hx => by
        obtain ⟨t, ht, hx⟩ := List.mem_filterMap.1 hx
        exact (hts t ht).part (mem_parts_of_attr? hx)
      exact ⟨ha, hreach u hmem⟩
    obtain ⟨t, ht, -⟩ := hmixed.differ bool
    obtain ⟨-, hnames⟩ := hobjects t ht
    refine ⟨.of_parts nofun ?_ fun u hu => ?_, fun t ht => ?_⟩
    · have horder := (hts t ht).names
      rw [hnames] at horder
      exact horder
    · obtain ⟨a, ha, rfl⟩ := List.mem_map.1 hu
      have hmem : a.1 ∈ t.attrNames := hnames ▸ List.mem_map_of_mem ha
      obtain ⟨u, hu⟩ := exists_attr?_of_mem hmem
      exact (hattr a ha ht hu).1
    · obtain ⟨hobject, hnames⟩ := hobjects t ht
      refine .object hobject hnames fun name u want hu hwant => ?_
      exact (hattr (name, want) (Fields.mem_of_get? hwant) ht hu).2
  | @mapping ts e hmixed hmapping hother _ ih =>
    obtain ⟨he, hreach⟩ := ih (parts_ne_nil_of_mapping hmapping hother) (hparts hts)
    refine ⟨.of_parts nofun .nil (List.forall_mem_singleton.2 he), fun t ht => ?_⟩
    exact .map (hmapping t ht) fun u hu => hreach u (List.mem_flatMap.2 ⟨t, ht, hu⟩)

end StaticConfig.Ty

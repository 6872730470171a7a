import Mathlib.Data.List.Nodup
import StaticConfig.Proofs.Comparison.Over
import StaticConfig.Proofs.Conversion.Establishes

/-!
Exact values: without marks, with whole numbers only, and with no item twice in a set. On them the
equality that sets go by is equality, so a set has the items it is made of, each once. A conversion
to the type that a value has leaves any value without marks as it is.
-/
namespace StaticConfig.Value

inductive Exact : Value → Prop
  | null {t : Ty} : Exact (.null t)
  | unknown {t : Ty} : Exact (.unknown t)
  | bool {b : Bool} : Exact (.bool b)
  | whole {n : Int64} : Exact (.number (.int n))
  | string {s : String} : Exact (.string s)
  | list {e : Ty} {items : List Value} : (∀ v ∈ items, Exact v) → Exact (.list e items)
  | set {e : Ty} {items : List Value} : (∀ v ∈ items, Exact v) → items.Nodup →
      Exact (.set e items)
  | map {e : Ty} {entries : List (String × Value)} : (∀ p ∈ entries, Exact p.2) →
      Exact (.map e entries)
  | tuple {items : List Value} : (∀ v ∈ items, Exact v) → Exact (.tuple items)
  | object {attrs : List (String × Value)} : (∀ p ∈ attrs, Exact p.2) → Exact (.object attrs)

theorem Exact.toOver {v : Value} (h : v.Exact) : v.Over Number.Whole := by
  induction h with
  | null => exact .null
  | unknown => exact .unknown
  | bool => exact .bool
  | @whole n => exact .number ⟨n, rfl⟩
  | string => exact .string
  | list _ ih => exact .list ih
  | set _ _ ih => exact .set ih
  | map _ ih => exact .map ih
  | tuple _ ih => exact .tuple ih
  | object _ ih => exact .object ih

theorem same_self {v : Value} (h : v.Exact) : same v v = true :=
  h.toOver.same_self fun _ => Number.eq_self_of_whole

mutual

theorem eq_of_same : ∀ {v w : Value}, v.Exact → w.Exact → same v w = true → v = w
  | .null _, w, _, _, h => by cases w <;> simp_all [same]
  | .unknown _, w, _, _, h => by cases w <;> simp_all [same]
  | .bool _, w, _, _, h => by cases w <;> simp_all [same]
  | .string _, w, _, _, h => by cases w <;> simp_all [same]
  | .number (.int m), w, _, hw, h => by
    cases hw with
    | whole => exact congrArg (number ∘ .int) (eq_of_beq h)
    | _ => cases h
  | .list _ vs, w, .list hvs, hw, h => by
    cases hw with
    | list hws =>
      obtain ⟨he, hitems⟩ := Bool.and_eq_true_iff.1 h
      rw [eq_of_beq he, eq_of_sameAll hvs hws hitems]
    | _ => cases h
  | .set _ vs, w, .set hvs _, hw, h => by
    cases hw with
    | set hws _ =>
      obtain ⟨he, hitems⟩ := Bool.and_eq_true_iff.1 h
      rw [eq_of_beq he, eq_of_sameAll hvs hws hitems]
    | _ => cases h
  | .map _ as, w, .map has, hw, h => by
    cases hw with
    | map hbs =>
      obtain ⟨he, hentries⟩ := Bool.and_eq_true_iff.1 h
      rw [eq_of_beq he, eq_of_sameFields has hbs hentries]
    | _ => cases h
  | .tuple vs, w, .tuple hvs, hw, h => by
    cases hw with
    | tuple hws => rw [eq_of_sameAll hvs hws h]
    | _ => cases h
  | .object as, w, .object has, hw, h => by
    cases hw with
    | object hbs => rw [eq_of_sameFields has hbs h]
    | _ => cases h

theorem eq_of_sameAll : ∀ {vs ws : List Value}, (∀ v ∈ vs, v.Exact) → (∀ w ∈ ws, w.Exact) →
    sameAll vs ws = true → vs = ws
  | [], [], _, _, _ => rfl
  | v :: vs, w :: ws, hv, hw, h => by
    obtain ⟨hv, hvs⟩ := List.forall_mem_cons.1 hv
    obtain ⟨hw, hws⟩ := List.forall_mem_cons.1 hw
    obtain ⟨hfirst, hrest⟩ := Bool.and_eq_true_iff.1 h
    rw [eq_of_same hv hw hfirst, eq_of_sameAll hvs hws hrest]

theorem eq_of_sameFields : ∀ {as bs : List (String × Value)}, (∀ p ∈ as, p.2.Exact) →
    (∀ p ∈ bs, p.2.Exact) → sameFields as bs = true → as = bs
  | [], [], _, _, _ => rfl
  | (k, v) :: as, (l, w) :: bs, hv, hw, h => by
    obtain ⟨hv, has⟩ := List.forall_mem_cons.1 hv
    obtain ⟨hw, hbs⟩ := List.forall_mem_cons.1 hw
    obtain ⟨hfirst, hrest⟩ := Bool.and_eq_true_iff.1 h
    obtain ⟨hk, hsame⟩ := Bool.and_eq_true_iff.1 hfirst
    obtain rfl := eq_of_beq hk
    obtain rfl := eq_of_same hv hw hsame
    rw [eq_of_sameFields has hbs hrest]

end

theorem same_iff {v w : Value} (hv : v.Exact) (hw : w.Exact) : same v w = true ↔ v = w :=
  ⟨eq_of_same hv hw, fun h => h ▸ same_self hv⟩

/-! The items of a set. -/

theorem any_same_iff {kept : List Value} {v : Value} (hkept : ∀ k ∈ kept, k.Exact)
    (hv : v.Exact) : (kept.any fun k => same k v) = true ↔ v ∈ kept := by
  rw [List.any_eq_true]
  constructor
  · intro h
    obtain ⟨k, hk, hsame⟩ := h
    rwa [← eq_of_same (hkept k hk) hv hsame]
  · intro h
    exact ⟨v, h, same_self hv⟩

theorem mem_distinctFrom_iff {kept items : List Value} (hkept : ∀ k ∈ kept, k.Exact)
    (hitems : ∀ v ∈ items, v.Exact) {v : Value} :
    v ∈ distinctFrom kept items ↔ v ∈ kept ∨ v ∈ items := by
  induction items generalizing kept with
  | nil => simp [distinctFrom]
  | cons u us ih =>
    obtain ⟨hu, hus⟩ := List.forall_mem_cons.1 hitems
    rw [distinctFrom]
    by_cases h : u ∈ kept
    · rw [if_pos ((any_same_iff hkept hu).2 h), ih hkept hus, List.mem_cons]
      constructor
      · intro hv
        exact hv.imp_right .inr
      · intro hv
        rcases hv with hv | rfl | hv
        · exact .inl hv
        · exact .inl h
        · exact .inr hv
    · have hkept' : ∀ k ∈ kept ++ [u], k.Exact :=
        List.forall_mem_append.2 ⟨hkept, List.forall_mem_singleton.2 hu⟩
      rw [if_neg fun hany => h ((any_same_iff hkept hu).1 hany), ih hkept' hus, List.mem_append,
        List.mem_singleton, List.mem_cons, or_assoc]

theorem pairwise_iff_nodup {items : List Value} (h : ∀ v ∈ items, v.Exact) :
    (items.Pairwise fun v w => same v w = false) ↔ items.Nodup := by
  refine List.Pairwise.iff_of_mem fun hv hw => ?_
  rw [← Bool.not_eq_true, same_iff (h _ hv) (h _ hw)]

theorem exact_of_mem_distinctFrom {items : List Value} (h : ∀ v ∈ items, v.Exact) :
    ∀ v ∈ distinctFrom [] items, v.Exact :=
  fun v hv => h v ((mem_distinctFrom hv).resolve_left List.not_mem_nil)

theorem nodup_distinctFrom {items : List Value} (h : ∀ v ∈ items, v.Exact) :
    (distinctFrom [] items).Nodup :=
  (pairwise_iff_nodup (exact_of_mem_distinctFrom h)).1 (pairwise_distinctFrom .nil)

theorem exact_setOf {e : Ty} {items : List Value} (h : ∀ v ∈ items, v.Exact) :
    (setOf e items).Exact :=
  .set (exact_of_mem_distinctFrom h) (nodup_distinctFrom h)

theorem setOf_of_nodup {e : Ty} {items : List Value} (h : ∀ v ∈ items, v.Exact)
    (hnodup : items.Nodup) : setOf e items = set e items :=
  congrArg (set e) (distinctFrom_of_pairwise ((pairwise_iff_nodup h).2 hnodup))

/-! Taking off the marks. -/

mutual

theorem bare_of_exact : ∀ {v : Value}, v.Exact → v.bare = v
  | .null _, .null => rfl
  | .unknown _, .unknown => rfl
  | .bool _, .bool => rfl
  | .number _, .whole => rfl
  | .string _, .string => rfl
  | .list e _, .list h => congrArg (list e) (bareAll_of_exact h)
  | .set e _, .set h hnodup => by
    rw [bare, bareAll_of_exact h, setOf_of_nodup h hnodup]
  | .map e _, .map h => congrArg (map e) (bareFields_of_exact h)
  | .tuple _, .tuple h => congrArg tuple (bareAll_of_exact h)
  | .object _, .object h => congrArg object (bareFields_of_exact h)

theorem bareAll_of_exact : ∀ {vs : List Value}, (∀ v ∈ vs, v.Exact) → bareAll vs = vs
  | [], _ => rfl
  | v :: vs, h => by
    obtain ⟨hv, hvs⟩ := List.forall_mem_cons.1 h
    rw [bareAll, bare_of_exact hv, bareAll_of_exact hvs]

theorem bareFields_of_exact : ∀ {fields : List (String × Value)}, (∀ p ∈ fields, p.2.Exact) →
    bareFields fields = fields
  | [], _ => rfl
  | (k, v) :: rest, h => by
    obtain ⟨hv, hrest⟩ := List.forall_mem_cons.1 h
    rw [bareFields, bare_of_exact hv, bareFields_of_exact hrest]

end

theorem hasMark_of_exact {v : Value} (h : v.Exact) : v.hasMark = false := by
  rw [← bare_of_exact h]
  exact hasMark_bare v

/-! Conversion to the type that a value has. -/

theorem types_eq_map (vs : List Value) : types vs = vs.map ty := by
  induction vs with
  | nil => rfl
  | cons v vs ih => exact congrArg (v.ty :: ·) ih

theorem fieldTypes_eq (fields : Fields Value) : fieldTypes fields = fields.mapValues ty := by
  induction fields with
  | nil => rfl
  | cons p rest ih => rw [fieldTypes, ih]; rfl

theorem mayConvert_self {t : Ty} (h : t.Definite) : t.mayConvert t = true := by
  cases h <;> rfl

theorem beq_dynamic_of_definite {t : Ty} (h : t.Definite) : (t == .dynamic) = false := by
  cases h <;> rfl

theorem elementTarget_of_definite {e : Ty} (h : e.Definite) (fault : ConversionFault)
    (found : List Ty) : elementTarget fault e found = .ok e := by
  rw [elementTarget, h.hasDynamic_eq_false]
  rfl

theorem collectAttrs_of_forall {converted : Fields (Except ConversionError Value)}
    {attrs : Fields Value} (h : ∀ p ∈ attrs, Fields.get? p.1 converted = some (.ok p.2)) :
    collectAttrs converted [] (fieldTypes attrs) = .ok attrs := by
  induction attrs with
  | nil => rfl
  | cons p rest ih =>
    obtain ⟨hp, hrest⟩ := List.forall_mem_cons.1 h
    rw [fieldTypes, collectAttrs, hp]
    simp only [ih hrest]
    rfl

/-- Taking the marks off a set drops repeated items, so where it changes nothing there are none. -/
theorem setOf_of_bare {e : Ty} {items : List Value} (h : (set e items).bare = set e items) :
    setOf e items = set e items := by
  have hitems : ∀ v ∈ items, v.bare = v := bare_of_mem_items? (congrArg items? h)
  rw [bare, bareAll_eq_map, List.map_congr_left hitems, List.map_id'] at h
  exact h

/-- From attributes that are left as they are the object is made again. -/
theorem collectAttrs_self {attrs : Fields Value} (hsorted : Fields.Sorted attrs) :
    collectAttrs (Fields.mapValues .ok attrs) [] (fieldTypes attrs) = .ok attrs := by
  apply collectAttrs_of_forall
  intro p hp
  rw [Fields.get?_mapValues, Fields.get?_of_mem hsorted hp]
  rfl

theorem get?_fieldTypes {attrs : Fields Value} (hsorted : Fields.Sorted attrs)
    {p : String × Value} (hp : p ∈ attrs) : Fields.get? p.1 (fieldTypes attrs) = some p.2.ty := by
  rw [fieldTypes_eq, Fields.get?_mapValues, Fields.get?_of_mem hsorted hp]
  rfl

mutual

/-- A value without marks converts to its own type without a change, by induction on the value. -/
theorem convert_self : ∀ {v : Value}, v.bare = v → v.WellTyped → v.ty.Definite →
    convert v v.ty = .ok v
  | .sensitive v, hbare, _, _ => by
    have hmark := hasMark_bare (sensitive v)
    rw [hbare] at hmark
    cases hmark
  | .null t, _, _, ht => by
    simp only [ty] at ht
    simp only [ty, convert, beq_dynamic_of_definite ht]
    rfl
  | .unknown t, _, _, ht => by
    simp only [ty] at ht
    simp only [ty, convert, beq_dynamic_of_definite ht, mayConvert_self ht]
    rfl
  | .bool _, _, _, _ => rfl
  | .number _, _, _, _ => rfl
  | .string _, _, _, _ => rfl
  | .list e items, hbare, .list hty hwell, .list he => by
    have hitems : ∀ v ∈ items, v.bare = v := bare_of_mem_items? (congrArg items? hbare)
    simp only [ty, convert, sequenceTo, elementTarget_of_definite he, bind, Except.bind,
      convertItems_self hitems hty hwell he]
    rfl
  | .set e items, hbare, .set hty hwell, .set he => by
    have hitems : ∀ v ∈ items, v.bare = v := bare_of_mem_items? (congrArg items? hbare)
    simp only [ty, convert, sequenceTo, elementTarget_of_definite he, bind, Except.bind,
      convertItems_self hitems hty hwell he]
    exact congrArg Except.ok (setOf_of_bare hbare)
  | .map e entries, hbare, .map hty hwell, .map he => by
    have hentries : ∀ p ∈ entries, p.2.bare = p.2 :=
      bare_of_mem_entries? (congrArg entries? hbare)
    simp only [ty, convert, mappingTo, elementTarget_of_definite he, bind, Except.bind,
      convertEntries_self hentries hty hwell he]
    rfl
  | .tuple items, hbare, .tuple hwell, .tuple hts => by
    have hitems : ∀ v ∈ items, v.bare = v := bare_of_mem_items? (congrArg items? hbare)
    have hlength : items.length = (types items).length := by
      rw [types_eq_map, List.length_map]
    simp only [ty, convert, sequenceTo, if_pos hlength, convertEach_self hitems hwell hts]
    rfl
  | .object attrs, hbare, .object hwell, .object hsorted hts => by
    have hattrs : ∀ p ∈ attrs, p.2.bare = p.2 := bare_of_mem_entries? (congrArg entries? hbare)
    rw [fieldTypes_eq, Fields.sorted_mapValues] at hsorted
    have htypes (p : String × Value) (hp : p ∈ attrs) :
        Fields.get? p.1 (fieldTypes attrs) = some p.2.ty ∧ p.2.ty.Definite :=
      ⟨get?_fieldTypes hsorted hp, hts _ (Fields.mem_of_get? (get?_fieldTypes hsorted hp))⟩
    simp only [ty, Ty.plainObject, convert, mappingTo, convertAttrs_self hattrs hwell htypes,
      collectAttrs_self hsorted]
    rfl

theorem convertItems_self : ∀ {items : List Value} {t : Ty} {start : Nat},
    (∀ v ∈ items, v.bare = v) → (∀ v ∈ items, v.ty = t) → (∀ v ∈ items, v.WellTyped) →
      t.Definite → convertItems start items t = .ok items
  | [], _, _, _, _, _, _ => rfl
  | v :: vs, t, start, hbare, hty, hwell, ht => by
    obtain ⟨hv, hvs⟩ := List.forall_mem_cons.1 hbare
    obtain ⟨hvty, hvsty⟩ := List.forall_mem_cons.1 hty
    obtain ⟨hvwell, hvswell⟩ := List.forall_mem_cons.1 hwell
    have hfirst : convert v t = .ok v := hvty ▸ convert_self hv hvwell (hvty ▸ ht)
    simp only [convertItems, hfirst, convertItems_self hvs hvsty hvswell ht]
    rfl

theorem convertEach_self : ∀ {items : List Value} {start : Nat}, (∀ v ∈ items, v.bare = v) →
    (∀ v ∈ items, v.WellTyped) → (∀ t ∈ types items, t.Definite) →
      convertEach start items (types items) = .ok items
  | [], _, _, _, _ => rfl
  | v :: vs, start, hbare, hwell, ht => by
    obtain ⟨hv, hvs⟩ := List.forall_mem_cons.1 hbare
    obtain ⟨hvwell, hvswell⟩ := List.forall_mem_cons.1 hwell
    obtain ⟨hd, hds⟩ := List.forall_mem_cons.1 ht
    simp only [types, convertEach, convert_self hv hvwell hd, convertEach_self hvs hvswell hds]
    rfl

theorem convertEntries_self : ∀ {entries : List (String × Value)} {t : Ty},
    (∀ p ∈ entries, p.2.bare = p.2) → (∀ p ∈ entries, p.2.ty = t) →
      (∀ p ∈ entries, p.2.WellTyped) → t.Definite → convertEntries entries t = .ok entries
  | [], _, _, _, _, _ => rfl
  | (k, v) :: rest, t, hbare, hty, hwell, ht => by
    obtain ⟨hv, hvs⟩ := List.forall_mem_cons.1 hbare
    obtain ⟨hvty, hvsty⟩ := List.forall_mem_cons.1 hty
    obtain ⟨hvwell, hvswell⟩ := List.forall_mem_cons.1 hwell
    have hfirst : convert v t = .ok v := hvty ▸ convert_self hv hvwell (hvty ▸ ht)
    simp only [convertEntries, hfirst, convertEntries_self hvs hvsty hvswell ht]
    rfl

theorem convertAttrs_self : ∀ {entries : List (String × Value)} {attrs : List (String × Ty)},
    (∀ p ∈ entries, p.2.bare = p.2) → (∀ p ∈ entries, p.2.WellTyped) →
      (∀ p ∈ entries, Fields.get? p.1 attrs = some p.2.ty ∧ p.2.ty.Definite) →
      convertAttrs entries attrs = Fields.mapValues .ok entries
  | [], _, _, _, _ => rfl
  | (k, v) :: rest, attrs, hbare, hwell, ht => by
    obtain ⟨hv, hvs⟩ := List.forall_mem_cons.1 hbare
    obtain ⟨hvwell, hvswell⟩ := List.forall_mem_cons.1 hwell
    obtain ⟨⟨hget, hd⟩, hds⟩ := List.forall_mem_cons.1 ht
    simp only [convertAttrs, hget, convert_self hv hvwell hd, convertAttrs_self hvs hvswell hds]
    rfl

end

end StaticConfig.Value

import StaticConfig.Proofs.Conversion.Establishes

/-!
What conversion to a type guarantees about its result. A result matches the type wherever
`dynamic` stands alone as the element type of a collection. A collection whose element type
only contains `dynamic` is converted to the type its elements have in common instead, which need
not be of the wanted form, so for every such type some conversion misses it.
-/
namespace StaticConfig

namespace Ty

/-- A type is an instance of a constraint, where `dynamic` in the constraint stands for any
type. Markers of optional attributes do not count. -/
inductive InstanceOf : Ty → Ty → Prop
  | dynamic {t : Ty} : InstanceOf t .dynamic
  | bool : InstanceOf .bool .bool
  | number : InstanceOf .number .number
  | string : InstanceOf .string .string
  | list {t want : Ty} : InstanceOf t want → InstanceOf (.list t) (.list want)
  | set {t want : Ty} : InstanceOf t want → InstanceOf (.set t) (.set want)
  | map {t want : Ty} : InstanceOf t want → InstanceOf (.map t) (.map want)
  | tuple {ts wants : List Ty} : ts.length = wants.length →
      (∀ p ∈ ts.zip wants, InstanceOf p.1 p.2) → InstanceOf (.tuple ts) (.tuple wants)
  | object {ts wants : List (String × Ty)} {optional optional' : Names} :
      Fields.keys ts = Fields.keys wants →
      (∀ name t want, Fields.get? name ts = some t → Fields.get? name wants = some want →
        InstanceOf t want) →
      InstanceOf (.object ts optional) (.object wants optional')

/-- Inside the element type of a collection `dynamic` stands only for that whole type. -/
inductive DynamicAlone : Ty → Prop
  | dynamic : DynamicAlone .dynamic
  | bool : DynamicAlone .bool
  | number : DynamicAlone .number
  | string : DynamicAlone .string
  | list {e : Ty} : e = .dynamic ∨ e.hasDynamic = false → DynamicAlone (.list e)
  | set {e : Ty} : e = .dynamic ∨ e.hasDynamic = false → DynamicAlone (.set e)
  | map {e : Ty} : e = .dynamic ∨ e.hasDynamic = false → DynamicAlone (.map e)
  | tuple {elems : List Ty} : (∀ t ∈ elems, DynamicAlone t) → DynamicAlone (.tuple elems)
  | object {attrs : List (String × Ty)} {optional : Names} :
      (∀ name t, Fields.get? name attrs = some t → DynamicAlone t) →
      DynamicAlone (.object attrs optional)

theorem size_le_sizeAll {t : Ty} {ts : List Ty} (h : t ∈ ts) : t.size ≤ sizeAll ts := by
  induction ts with
  | nil => cases h
  | cons u us ih =>
    simp only [sizeAll]
    rcases List.mem_cons.1 h with rfl | h
    · omega
    · have := ih h
      omega

theorem size_lt_of_mem_tuple {t : Ty} {elems : List Ty} (h : t ∈ elems) :
    t.size < (Ty.tuple elems).size := by
  have := size_le_sizeAll h
  simp only [size]
  omega

theorem size_lt_of_get? {name : String} {t : Ty} {attrs : List (String × Ty)} (optional : Names)
    (h : Fields.get? name attrs = some t) : t.size < (Ty.object attrs optional).size :=
  size_lt_of_attr? (t := .object attrs optional) h

theorem InstanceOf.refl (t : Ty) : InstanceOf t t := by
  cases t with
  | dynamic => exact .dynamic
  | bool => exact .bool
  | number => exact .number
  | string => exact .string
  | list e => exact .list (refl e)
  | set e => exact .set (refl e)
  | map e => exact .map (refl e)
  | tuple elems =>
    refine .tuple rfl fun p hp => ?_
    obtain ⟨t, u⟩ := p
    obtain rfl : t = u := by
      obtain ⟨i, hi, heq⟩ := List.mem_iff_getElem.1 hp
      simp only [List.getElem_zip, Prod.mk.injEq] at heq
      exact heq.1.symm.trans heq.2
    have hmem : t ∈ elems := (List.of_mem_zip hp).1
    exact refl t
  | object attrs optional =>
    refine .object rfl fun name t u ht hu => ?_
    obtain rfl : t = u := Option.some.inj (ht.symm.trans hu)
    exact refl t
termination_by t.size
decreasing_by
  · simp only [size]
    omega
  · simp only [size]
    omega
  · simp only [size]
    omega
  · exact size_lt_of_mem_tuple hmem
  · exact size_lt_of_get? optional ht

theorem anyDynamic_eq_false {elems : List Ty} (h : anyDynamic elems = false) {t : Ty}
    (ht : t ∈ elems) : t.hasDynamic = false := by
  induction elems with
  | nil => cases ht
  | cons u us ih =>
    simp only [anyDynamic, Bool.or_eq_false_iff] at h
    rcases List.mem_cons.1 ht with rfl | ht
    · exact h.1
    · exact ih h.2 ht

theorem anyFieldDynamic_eq_false {attrs : List (String × Ty)} (h : anyFieldDynamic attrs = false)
    {name : String} {t : Ty} (ht : Fields.get? name attrs = some t) : t.hasDynamic = false := by
  induction attrs with
  | nil => simp [Fields.get?] at ht
  | cons e rest ih =>
    obtain ⟨k, u⟩ := e
    simp only [anyFieldDynamic, Bool.or_eq_false_iff] at h
    by_cases hk : k = name
    · obtain rfl : u = t := by simpa [Fields.get?, hk] using ht
      exact h.1
    · simp only [Fields.get?, hk, if_false] at ht
      exact ih h.2 ht

theorem DynamicAlone.of_hasDynamic (t : Ty) (h : t.hasDynamic = false) : DynamicAlone t := by
  match t with
  | .dynamic => exact .dynamic
  | .bool => exact .bool
  | .number => exact .number
  | .string => exact .string
  | .list e => exact .list (.inr h)
  | .set e => exact .set (.inr h)
  | .map e => exact .map (.inr h)
  | .tuple elems =>
    exact .tuple fun t ht => of_hasDynamic t (anyDynamic_eq_false h ht)
  | .object attrs optional =>
    exact .object fun name t ht => of_hasDynamic t (anyFieldDynamic_eq_false h ht)
termination_by t.size
decreasing_by
  · exact size_lt_of_mem_tuple ht
  · exact size_lt_of_get? optional ht

end Ty

namespace Value

/-- A value is of the form that a type asks for. Marks and markers of optional attributes do not
count. -/
inductive Matches : Value → Ty → Prop
  | dynamic {v : Value} : Matches v .dynamic
  | sensitive {v : Value} {t : Ty} : Matches v t → Matches (.sensitive v) t
  | null {t want : Ty} : t.InstanceOf want → Matches (.null t) want
  | unknown {t want : Ty} : t.InstanceOf want → Matches (.unknown t) want
  | bool {b : Bool} : Matches (.bool b) .bool
  | number {n : Number} : Matches (.number n) .number
  | string {s : String} : Matches (.string s) .string
  | list {e t : Ty} {items : List Value} :
      (∀ v ∈ items, Matches v t) → Matches (.list e items) (.list t)
  | set {e t : Ty} {items : List Value} :
      (∀ v ∈ items, Matches v t) → Matches (.set e items) (.set t)
  | map {e t : Ty} {entries : List (String × Value)} :
      (∀ p ∈ entries, Matches p.2 t) → Matches (.map e entries) (.map t)
  | tuple {items : List Value} {elems : List Ty} : items.length = elems.length →
      (∀ p ∈ items.zip elems, Matches p.1 p.2) → Matches (.tuple items) (.tuple elems)
  | object {fields : List (String × Value)} {attrs : List (String × Ty)} {optional : Names} :
      Fields.keys fields = Fields.keys attrs →
      (∀ name v t, Fields.get? name fields = some v → Fields.get? name attrs = some t →
        Matches v t) →
      Matches (.object fields) (.object attrs optional)

theorem matches_mark {v : Value} {t : Ty} (h : Matches v t) : Matches v.mark t := by
  cases v with
  | sensitive v => exact h
  | _ => exact .sensitive h

/-- Conversion to a type in which `dynamic` stands alone gives a value of its form. -/
theorem establishes_matches : Establishes Ty.DynamicAlone Matches where
  element hw he := by
    cases hw with
    | list h =>
      cases he
      exact h.elim (fun h => h ▸ .dynamic) (.of_hasDynamic _)
    | set h =>
      cases he
      exact h.elim (fun h => h ▸ .dynamic) (.of_hasDynamic _)
    | map h =>
      cases he
      exact h.elim (fun h => h ▸ .dynamic) (.of_hasDynamic _)
    | _ => cases he
  position hw ht := by
    cases hw with
    | tuple h => exact h _ ht
  attr hw ht := by
    cases hw with
    | object h => exact h _ _ ht
  dynamic _ _ := .dynamic
  mark := matches_mark
  null _ := .null (Ty.InstanceOf.refl _)
  unknown _ := .unknown (Ty.InstanceOf.refl _)
  bool _ := .bool
  number _ := .number
  string _ := .string
  list hw h := by
    cases hw with
    | list he =>
      rcases he with rfl | he
      · exact .list fun _ _ => .dynamic
      · exact .list (h he).2
  set hw h := by
    cases hw with
    | set he =>
      rcases he with rfl | he
      · exact .set fun _ _ => .dynamic
      · exact .set (h he).2
  map hw h := by
    cases hw with
    | map he =>
      rcases he with rfl | he
      · exact .map fun _ _ => .dynamic
      · exact .map (h he).2
  tuple _ hlen h := .tuple hlen h
  object _ hkeys h := .object hkeys h

theorem matches_of_convert (v : Value) {want : Ty} {r : Value} (hw : want.DynamicAlone)
    (h : convert v want = .ok r) : Matches r want :=
  establishes_matches.of_convert v hw h

/-- A truth value is of no form that contains `dynamic` below the top. -/
theorem not_matches_bool {b : Bool} {e : Ty} (hne : e ≠ .dynamic) (he : e.hasDynamic = true) :
    ¬ Matches (bool b) e := by
  intro h
  cases h with
  | dynamic => exact hne rfl
  | bool => cases he

theorem unify_single (t : Ty) : Ty.unify [t] = some t := by
  rw [Ty.unify]
  by_cases h : t = .dynamic
  · simp [h]
  · simp [Ne.symm h]

/-- A sequence of one truth value becomes a list of truth values, whatever its items should be. -/
theorem convert_single_list {e : Ty} (he : e.hasDynamic = true) :
    convert (tuple [bool true]) (.list e) = .ok (list .bool [bool true]) := by
  simp [convert, sequenceTo, elementTarget, he, types, ty, unify_single, convertItems,
    convertPrimitive, bind, Except.bind, Except.map]

theorem convert_single_set {e : Ty} (he : e.hasDynamic = true) :
    convert (tuple [bool true]) (.set e) = .ok (set .bool [bool true]) := by
  simp [convert, sequenceTo, elementTarget, he, types, ty, unify_single, convertItems,
    convertPrimitive, setOf, distinctFrom, bind, Except.bind, Except.map]

theorem convert_single_map {e : Ty} (he : e.hasDynamic = true) (k : String) :
    convert (object [(k, bool true)]) (.map e) = .ok (map .bool [(k, bool true)]) := by
  simp [convert, mappingTo, elementTarget, he, fieldTypes, ty, Fields.values, unify_single,
    convertEntries, convertPrimitive, bind, Except.bind, Except.map]

theorem convert_nothing (t : Ty) : convert nothing t = .ok (null t) := by
  by_cases h : t = .dynamic
  · subst h
    rfl
  · simp [nothing, convert, h]

theorem convertEach_nothing (start : Nat) (ts : List Ty) :
    convertEach start (List.replicate ts.length nothing) ts = .ok (ts.map null) := by
  induction ts generalizing start with
  | nil => rfl
  | cons t ts ih => simp [List.replicate_succ, convertEach, convert_nothing, ih, Except.map]

/-- One item of a tuple may be chosen freely if the others are null. -/
theorem convertEach_at {v r : Value} {t : Ty} (h : convert v t = .ok r) (pre post : List Ty)
    (start : Nat) :
    convertEach start
        (List.replicate pre.length nothing ++ v :: List.replicate post.length nothing)
        (pre ++ t :: post) = .ok (pre.map null ++ r :: post.map null) := by
  induction pre generalizing start with
  | nil => simp [convertEach, h, convertEach_nothing, Except.map]
  | cons u us ih => simp [List.replicate_succ, convertEach, convert_nothing, ih, Except.map]

theorem collectAttrs_of_converted {converted : Fields (Except ConversionError Value)}
    (optional : Names) {attrs : List (String × Ty)}
    (h : ∀ name ∈ Fields.keys attrs, ∃ v, Fields.get? name converted = some (.ok v)) :
    ∃ fields, collectAttrs converted optional attrs = .ok fields ∧
      ∀ name ∈ Fields.keys attrs, ∀ v, Fields.get? name converted = some (.ok v) →
        Fields.get? name fields = some v := by
  induction attrs with
  | nil => exact ⟨[], rfl, by simp [Fields.keys]⟩
  | cons e rest ih =>
    obtain ⟨k, t⟩ := e
    obtain ⟨v, hv⟩ := h k (by simp [Fields.keys])
    obtain ⟨fields, hf, hget⟩ := ih fun name hn => h name (List.mem_cons_of_mem k hn)
    refine ⟨(k, v) :: fields, by simp [collectAttrs, hv, hf, Except.map], fun name hn w hw => ?_⟩
    by_cases hk : k = name
    · subst hk
      obtain rfl : v = w := by simpa using hv.symm.trans hw
      simp [Fields.get?]
    · have hn' : name ∈ Fields.keys rest := by
        rcases List.mem_cons.1 hn with hn | hn
        · exact absurd hn.symm hk
        · exact hn
      simpa [Fields.get?, hk] using hget name hn' w hw

/-- A conversion of one attribute is part of a conversion of an object. -/
theorem convert_object_at {v r : Value} {name : String} {t : Ty} {attrs : List (String × Ty)}
    (optional : Names) (ht : Fields.get? name attrs = some t) (h : convert v t = .ok r) :
    ∃ w fields, convert w (.object attrs optional) = .ok (object fields) ∧
      Fields.get? name fields = some r := by
  let part (k : String) : Value := if k = name then v else nothing
  let entries := attrs.map fun e => (e.1, part e.1)
  have hname : name ∈ Fields.keys attrs := Fields.mem_keys_of_get? ht
  have hpart : ∀ k ∈ Fields.keys attrs, ∃ x,
      Fields.get? k (convertAttrs entries attrs) = some (.ok x) := by
    intro k hk
    obtain ⟨u, hu⟩ := Fields.exists_get?_of_mem_keys hk
    have hk' : Fields.get? k entries = some (part k) := Fields.get?_map_name part hk
    rw [get?_convertAttrs, hk', hu]
    by_cases hkn : k = name
    · subst hkn
      obtain rfl : u = t := Option.some.inj (hu.symm.trans ht)
      exact ⟨r, by simp [part, h]⟩
    · exact ⟨null u, by simp [part, hkn, convert_nothing]⟩
  obtain ⟨fields, hf, hget⟩ := collectAttrs_of_converted optional hpart
  refine ⟨object entries, fields, ?_, hget name hname r ?_⟩
  · simp only [convert, mappingTo, hf, Except.map]
  · have hn : Fields.get? name entries = some (part name) := Fields.get?_map_name part hname
    rw [get?_convertAttrs, hn, ht]
    simp [part, h]

theorem dynamicAlone_of_matches (want : Ty)
    (h : ∀ v r, convert v want = .ok r → Matches r want) : want.DynamicAlone := by
  match want with
  | .dynamic => exact .dynamic
  | .bool => exact .bool
  | .number => exact .number
  | .string => exact .string
  | .list e =>
    refine .list ?_
    by_contra hn
    obtain ⟨hne, he⟩ := not_or.1 hn
    have he : e.hasDynamic = true := by simpa using he
    cases h _ _ (convert_single_list he) with
    | list hm => exact not_matches_bool hne he (hm _ List.mem_cons_self)
  | .set e =>
    refine .set ?_
    by_contra hn
    obtain ⟨hne, he⟩ := not_or.1 hn
    have he : e.hasDynamic = true := by simpa using he
    cases h _ _ (convert_single_set he) with
    | set hm => exact not_matches_bool hne he (hm _ List.mem_cons_self)
  | .map e =>
    refine .map ?_
    by_contra hn
    obtain ⟨hne, he⟩ := not_or.1 hn
    have he : e.hasDynamic = true := by simpa using he
    cases h _ _ (convert_single_map he "") with
    | map hm => exact not_matches_bool hne he (hm _ List.mem_cons_self)
  | .tuple elems =>
    refine .tuple fun t ht => dynamicAlone_of_matches t fun v r hr => ?_
    obtain ⟨pre, post, rfl⟩ := List.append_of_mem ht
    have hc : convert
        (tuple (List.replicate pre.length nothing ++ v :: List.replicate post.length nothing))
        (.tuple (pre ++ t :: post)) = .ok (tuple (pre.map null ++ r :: post.map null)) := by
      simp [convert, sequenceTo, convertEach_at hr, Except.map]
    cases h _ _ hc with
    | tuple _ hm =>
      refine hm (r, t) ?_
      rw [List.zip_append (by simp)]
      simp
  | .object attrs optional =>
    refine .object fun name t ht => dynamicAlone_of_matches t fun v r hr => ?_
    obtain ⟨w, fields, hw, hget⟩ := convert_object_at optional ht hr
    cases h _ _ hw with
    | object _ hm => exact hm name r t hget ht
termination_by want.size
decreasing_by
  · exact Ty.size_lt_of_mem_tuple ht
  · exact Ty.size_lt_of_get? optional ht

/-- Conversion to a type is sure to give a value of that form exactly when `dynamic` stands alone
wherever it stands inside a collection. -/
theorem convert_matches_iff (want : Ty) :
    (∀ v r, convert v want = .ok r → Matches r want) ↔ want.DynamicAlone :=
  ⟨dynamicAlone_of_matches want, fun hw v _ h => matches_of_convert v hw h⟩

/-- A list of texts is no list of lists, but it converts to one of any elements. -/
theorem convert_leaves_nested_list : ∃ r,
    convert (tuple [string "a"]) (.list (.list .dynamic)) = .ok r ∧
      ¬ Matches r (.list (.list .dynamic)) := by
  refine ⟨list .string [string "a"], ?_, fun h => ?_⟩
  · simp [convert, sequenceTo, elementTarget, Ty.hasDynamic, types, ty, unify_single,
      convertItems, convertPrimitive, bind, Except.bind, Except.map]
  · cases h with
    | list hm => cases hm _ List.mem_cons_self

end Value
end StaticConfig

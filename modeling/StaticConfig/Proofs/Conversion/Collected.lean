import StaticConfig.Proofs.Except
import StaticConfig.Proofs.Fields
import StaticConfig.Value.Convert

/-!
Where a converted value and its parts come from: what primitive values convert to, the items of a
set, and the attributes of an object.
-/
namespace StaticConfig.Value

theorem convertPrimitive_cases {v r : Value} {want : Ty} (h : convertPrimitive v want = .ok r) :
    (want = .dynamic ∧ r = v) ∨ (want = .bool ∧ ∃ b, r = bool b) ∨
      (want = .number ∧ ∃ n, r = number n) ∨ want = .string ∧ ∃ s, r = string s := by
  unfold convertPrimitive at h
  split at h
  · exact .inl ⟨rfl, (Except.ok.inj h).symm⟩
  · exact .inr (.inl ⟨rfl, _, (Except.ok.inj h).symm⟩)
  · split at h
    · exact .inr (.inl ⟨rfl, _, (Except.ok.inj h).symm⟩)
    · split at h
      · exact .inr (.inl ⟨rfl, _, (Except.ok.inj h).symm⟩)
      · cases h
  · exact .inr (.inr (.inl ⟨rfl, _, (Except.ok.inj h).symm⟩))
  · split at h
    · exact .inr (.inr (.inl ⟨rfl, _, (Except.ok.inj h).symm⟩))
    · cases h
  · exact .inr (.inr (.inr ⟨rfl, _, (Except.ok.inj h).symm⟩))
  · exact .inr (.inr (.inr ⟨rfl, _, (Except.ok.inj h).symm⟩))
  · exact .inr (.inr (.inr ⟨rfl, _, (Except.ok.inj h).symm⟩))
  · cases h

theorem mem_distinctFrom {kept items : List Value} {v : Value}
    (h : v ∈ distinctFrom kept items) : v ∈ kept ∨ v ∈ items := by
  induction items generalizing kept with
  | nil => exact .inl h
  | cons u us ih =>
    simp only [distinctFrom] at h
    split at h
    · rcases ih h with h | h
      · exact .inl h
      · exact .inr (List.mem_cons_of_mem u h)
    · rcases ih h with h | h
      · rcases List.mem_append.1 h with h | h
        · exact .inl h
        · obtain rfl := List.mem_singleton.1 h
          exact .inr List.mem_cons_self
      · exact .inr (List.mem_cons_of_mem u h)

/-- No item of a set equals a later one. -/
theorem pairwise_distinctFrom {kept items : List Value}
    (h : kept.Pairwise fun v w => same v w = false) :
    (distinctFrom kept items).Pairwise fun v w => same v w = false := by
  induction items generalizing kept with
  | nil => exact h
  | cons u us ih =>
    rw [distinctFrom]
    split
    · exact ih h
    · rename_i hnew
      refine ih (List.pairwise_append.2 ⟨h, List.pairwise_singleton _ _, fun k hk w hw => ?_⟩)
      obtain rfl := List.mem_singleton.1 hw
      exact Bool.eq_false_iff.2 fun hsame => hnew (List.any_eq_true.2 ⟨k, hk, hsame⟩)

/-- Where no item equals a later one, a set keeps them all. -/
theorem distinctFrom_of_pairwise {kept items : List Value}
    (h : (kept ++ items).Pairwise fun v w => same v w = false) :
    distinctFrom kept items = kept ++ items := by
  induction items generalizing kept with
  | nil => exact (List.append_nil kept).symm
  | cons u us ih =>
    have hnew : (kept.any fun k => same k u) = false := by
      refine List.any_eq_false.2 fun k hk => ?_
      rw [(List.pairwise_append.1 h).2.2 k hk u List.mem_cons_self]
      exact Bool.false_ne_true
    have heq : kept ++ u :: us = kept ++ [u] ++ us := by rw [List.append_assoc]; rfl
    rw [distinctFrom, hnew, if_neg Bool.false_ne_true, heq]
    exact ih (heq ▸ h)

theorem distinctFrom_distinctFrom (items : List Value) :
    distinctFrom [] (distinctFrom [] items) = distinctFrom [] items :=
  distinctFrom_of_pairwise (pairwise_distinctFrom .nil)

/-- Of the entries of a value, those that name a wanted attribute are converted. -/
theorem get?_convertAttrs (name : String) (entries : List (String × Value))
    (attrs : List (String × Ty)) :
    Fields.get? name (convertAttrs entries attrs) =
      match Fields.get? name entries, Fields.get? name attrs with
      | some v, some t => some (convert v t)
      | _, _ => none := by
  induction entries with
  | nil => rfl
  | cons e rest ih =>
    obtain ⟨k, v⟩ := e
    by_cases hk : k = name
    · subst hk
      cases ht : Fields.get? k attrs with
      | none => simpa [convertAttrs, ht, Fields.get?] using ih
      | some t => simp [convertAttrs, ht, Fields.get?]
    · cases ht : Fields.get? k attrs with
      | none => simpa [convertAttrs, ht, Fields.get?, hk] using ih
      | some t => simpa [convertAttrs, ht, Fields.get?, hk] using ih

/-- The attributes collected are the wanted ones, each with its converted value or, where it may
be left out, null. -/
theorem of_collectAttrs {converted : Fields (Except ConversionError Value)} {optional : Names}
    {attrs : Fields Ty} {fields : Fields Value}
    (h : collectAttrs converted optional attrs = .ok fields) :
    Fields.keys fields = Fields.keys attrs ∧
      ∀ (i : Nat) p q, attrs[i]? = some p → fields[i]? = some q →
        Fields.get? p.1 converted = some (.ok q.2) ∨
          Fields.get? p.1 converted = none ∧ q.2 = null p.2 := by
  induction attrs generalizing fields with
  | nil =>
    obtain rfl := Except.ok.inj h
    exact ⟨rfl, nofun⟩
  | cons e rest ih =>
    obtain ⟨k, t⟩ := e
    -- Both ways of keeping the attribute continue with the same rest.
    have step : ∀ x : Value, (collectAttrs converted optional rest).map (fun more => (k, x) :: more)
        = .ok fields → (Fields.get? k converted = some (.ok x) ∨
          Fields.get? k converted = none ∧ x = null t) →
        Fields.keys fields = Fields.keys ((k, t) :: rest) ∧
          ∀ (i : Nat) p q, ((k, t) :: rest)[i]? = some p → fields[i]? = some q →
            Fields.get? p.1 converted = some (.ok q.2) ∨
              Fields.get? p.1 converted = none ∧ q.2 = null p.2 := by
      intro x hx hkept
      obtain ⟨more, hmore, rfl⟩ := Except.map_eq_ok.1 hx
      obtain ⟨hkeys, hparts⟩ := ih hmore
      refine ⟨congrArg (k :: ·) hkeys, fun i p q hp hq => ?_⟩
      cases i with
      | zero =>
        obtain rfl := Option.some.inj hp
        obtain rfl := Option.some.inj hq
        exact hkept
      | succ i => exact hparts i p q hp hq
    simp only [collectAttrs] at h
    split at h
    · rename_i x hx
      exact step x h (.inl hx)
    · cases h
    · rename_i hnone
      split at h
      · exact step (null t) h (.inr ⟨hnone, rfl⟩)
      · cases h

/-- Of the entries of a value, an object type takes those that name its attributes, converted, and
null for the others. -/
theorem of_collectAttrs_convertAttrs {entries : Fields Value} {attrs : Fields Ty}
    {optional : Names} {fields : Fields Value}
    (h : collectAttrs (convertAttrs entries attrs) optional attrs = .ok fields) :
    Fields.keys fields = Fields.keys attrs ∧
      (∀ (i : Nat) p q a t, attrs[i]? = some p → fields[i]? = some q →
        Fields.get? p.1 entries = some a → Fields.get? p.1 attrs = some t →
        convert a t = .ok q.2) ∧
      ∀ (i : Nat) p q, attrs[i]? = some p → fields[i]? = some q →
        Fields.get? p.1 entries = none → q.2 = null p.2 := by
  obtain ⟨hkeys, hparts⟩ := of_collectAttrs h
  refine ⟨hkeys, fun i p q a t hp hq ha ht => ?_, fun i p q hp hq hnone => ?_⟩
  · have hget : Fields.get? p.1 (convertAttrs entries attrs) = some (convert a t) := by
      rw [get?_convertAttrs, ha, ht]
    obtain hok | ⟨hnone, -⟩ := hparts i p q hp hq
    · exact Option.some.inj (hget.symm.trans hok)
    · cases hget.symm.trans hnone
  · obtain hok | ⟨-, hnull⟩ := hparts i p q hp hq
    · rw [get?_convertAttrs, hnone] at hok
      cases hok
    · exact hnull

/-!
What stays of a value when its marks are taken off: its type, and whether it is null. What is left
has no marks to take off.
-/

theorem bareAll_eq_map (vs : List Value) : bareAll vs = vs.map bare := by
  induction vs with
  | nil => rfl
  | cons v vs ih => exact congrArg (v.bare :: ·) ih

theorem bareFields_eq_mapValues (fields : Fields Value) :
    bareFields fields = fields.mapValues bare := by
  induction fields with
  | nil => rfl
  | cons p rest ih => exact congrArg ((p.1, p.2.bare) :: ·) ih

theorem isNull_of_items? {v : Value} {items : List Value} (h : v.items? = some items) :
    v.isNull = false := by
  cases v <;> first | rfl | cases h

theorem isNull_of_entries? {v : Value} {entries : Fields Value} (h : v.entries? = some entries) :
    v.isNull = false := by
  cases v <;> first | rfl | cases h

theorem mark_of_isMarked_eq_false {v : Value} (h : v.isMarked = false) : v.mark = sensitive v := by
  cases v <;> first | rfl | cases h

theorem mark_of_isMarked {v : Value} (h : v.isMarked = true) : v.mark = v := by
  cases v <;> first | rfl | cases h

theorem isNull_mark (v : Value) : v.mark.isNull = v.isNull := by
  cases v <;> rfl

theorem ty_mark (v : Value) : v.mark.ty = v.ty := by
  cases v <;> rfl

theorem bare_mark (v : Value) : v.mark.bare = v.bare := by
  cases v <;> rfl

theorem isNull_bare (v : Value) : v.bare.isNull = v.isNull := by
  cases v with
  | sensitive v => exact isNull_bare v
  | _ => rfl

mutual

theorem ty_bare : ∀ v : Value, v.bare.ty = v.ty
  | .sensitive v => ty_bare v
  | .null _ | .unknown _ | .bool _ | .number _ | .string _ => rfl
  | .list _ _ | .set _ _ | .map _ _ => rfl
  | .tuple items => congrArg Ty.tuple (types_bareAll items)
  | .object attrs => congrArg Ty.plainObject (fieldTypes_bareFields attrs)

theorem types_bareAll : ∀ vs : List Value, types (bareAll vs) = types vs
  | [] => rfl
  | v :: vs => by rw [bareAll, types, types, ty_bare v, types_bareAll vs]

theorem fieldTypes_bareFields : ∀ fields : List (String × Value),
    fieldTypes (bareFields fields) = fieldTypes fields
  | [] => rfl
  | (k, v) :: rest => by
    rw [bareFields, fieldTypes, fieldTypes, ty_bare v, fieldTypes_bareFields rest]

end

mutual

theorem bare_bare : ∀ v : Value, v.bare.bare = v.bare
  | .sensitive v => bare_bare v
  | .null _ | .unknown _ | .bool _ | .number _ | .string _ => rfl
  | .list e items => congrArg (list e) (bareAll_bareAll items)
  | .set e items => by
    have hfixed : ∀ v ∈ distinctFrom [] (bareAll items), v.bare = v := by
      intro v hv
      have hmem := (mem_distinctFrom hv).resolve_left List.not_mem_nil
      have hall : (bareAll items).map bare = (bareAll items).map id := by
        rw [← bareAll_eq_map, bareAll_bareAll items, List.map_id]
      exact List.map_inj_left.1 hall v hmem
    have hkept : (distinctFrom [] (bareAll items)).map bare = distinctFrom [] (bareAll items) :=
      (List.map_congr_left hfixed).trans (List.map_id _)
    rw [bare, setOf, bare, setOf, bareAll_eq_map (distinctFrom _ _), hkept,
      distinctFrom_distinctFrom]
  | .tuple items => congrArg tuple (bareAll_bareAll items)
  | .map e entries => congrArg (map e) (bareFields_bareFields entries)
  | .object attrs => congrArg object (bareFields_bareFields attrs)

theorem bareAll_bareAll : ∀ vs : List Value, bareAll (bareAll vs) = bareAll vs
  | [] => rfl
  | v :: vs => by rw [bareAll, bareAll, bare_bare v, bareAll_bareAll vs]

theorem bareFields_bareFields : ∀ fields : List (String × Value),
    bareFields (bareFields fields) = bareFields fields
  | [] => rfl
  | (k, v) :: rest => by rw [bareFields, bareFields, bare_bare v, bareFields_bareFields rest]

end

/-- The elements of a value without marks have none. -/
theorem bare_of_mem_items? {v : Value} {items : List Value} (h : v.bare.items? = some items) :
    ∀ x ∈ items, x.bare = x := by
  have hmem {vs : List Value} {x : Value} (hx : x ∈ bareAll vs) : x.bare = x := by
    rw [bareAll_eq_map] at hx
    obtain ⟨y, -, rfl⟩ := List.mem_map.1 hx
    exact bare_bare y
  intro x hx
  have hfixed := bare_bare v
  cases hb : v.bare with
  | list e vs =>
    rw [hb] at h hfixed
    cases h
    simp only [bare, list.injEq, true_and] at hfixed
    exact hmem (hfixed ▸ hx)
  | set e vs =>
    rw [hb] at h hfixed
    cases h
    simp only [bare, setOf, set.injEq, true_and] at hfixed
    exact hmem ((mem_distinctFrom (hfixed ▸ hx)).resolve_left List.not_mem_nil)
  | tuple vs =>
    rw [hb] at h hfixed
    cases h
    simp only [bare, tuple.injEq] at hfixed
    exact hmem (hfixed ▸ hx)
  | _ =>
    rw [hb] at h
    cases h

/-- The values of the entries of a value without marks have none. -/
theorem bare_of_mem_entries? {v : Value} {entries : Fields Value}
    (h : v.bare.entries? = some entries) : ∀ p ∈ entries, p.2.bare = p.2 := by
  have hmem {fields : Fields Value} {p : String × Value} (hp : p ∈ bareFields fields) :
      p.2.bare = p.2 := by
    rw [bareFields_eq_mapValues] at hp
    obtain ⟨q, -, rfl⟩ := List.mem_map.1 hp
    exact bare_bare q.2
  intro p hp
  have hfixed := bare_bare v
  cases hb : v.bare with
  | map e fields =>
    rw [hb] at h hfixed
    cases h
    simp only [bare, map.injEq, true_and] at hfixed
    exact hmem (hfixed ▸ hp)
  | object fields =>
    rw [hb] at h hfixed
    cases h
    simp only [bare, object.injEq] at hfixed
    exact hmem (hfixed ▸ hp)
  | _ =>
    rw [hb] at h
    cases h

end StaticConfig.Value

import Mathlib.Data.List.Forall2
import StaticConfig.Fields

/-!
Names and lookup in records, and records that agree entry by entry.
-/
namespace StaticConfig.Fields

variable {α β : Type}

/-- The same names in the same order, with related values. -/
inductive Related (R : α → β → Prop) : Fields α → Fields β → Prop
  | nil : Related R [] []
  | cons {k : String} {a : α} {b : β} {as : Fields α} {bs : Fields β} :
      R a b → Related R as bs → Related R ((k, a) :: as) ((k, b) :: bs)

theorem mem_keys_of_get? {name : String} {a : α} {fields : Fields α}
    (h : get? name fields = some a) : name ∈ keys fields := by
  induction fields with
  | nil => simp [get?] at h
  | cons e rest ih =>
    obtain ⟨k, b⟩ := e
    by_cases hk : k = name
    · simp [keys, hk]
    · simp only [get?, hk, if_false] at h
      exact List.mem_cons_of_mem k (ih h)

theorem exists_get?_of_mem_keys {name : String} {fields : Fields α} (h : name ∈ keys fields) :
    ∃ a, get? name fields = some a := by
  induction fields with
  | nil => simp [keys] at h
  | cons e rest ih =>
    obtain ⟨k, b⟩ := e
    by_cases hk : k = name
    · exact ⟨b, by simp [get?, hk]⟩
    · have hm : name ∈ keys rest := by
        rcases List.mem_cons.1 h with h | h
        · exact absurd h.symm hk
        · exact h
      obtain ⟨a, ha⟩ := ih hm
      exact ⟨a, by simp [get?, hk, ha]⟩

theorem contains_iff_mem_keys {name : String} {fields : Fields α} :
    contains name fields = true ↔ name ∈ keys fields := by
  rw [contains, Option.isSome_iff_exists]
  constructor
  · rintro ⟨a, ha⟩
    exact mem_keys_of_get? ha
  · exact exists_get?_of_mem_keys

theorem mem_insert {name : String} {a : α} {fields : Fields α} {e : String × α}
    (h : e ∈ insert name a fields) : e = (name, a) ∨ e ∈ fields := by
  induction fields with
  | nil => exact .inl (List.mem_singleton.1 h)
  | cons d rest ih =>
    simp only [insert] at h
    split at h
    · rcases List.mem_cons.1 h with h | h
      · exact .inl h
      · exact .inr (List.mem_cons_of_mem d h)
    · split at h
      · exact List.mem_cons.1 h
      · rcases List.mem_cons.1 h with rfl | h
        · exact .inr List.mem_cons_self
        · exact (ih h).imp_right (List.mem_cons_of_mem d)

theorem mem_insertAll {new fields : Fields α} {e : String × α}
    (h : e ∈ insertAll new fields) : e ∈ new ∨ e ∈ fields := by
  induction new generalizing fields with
  | nil => exact .inr h
  | cons d rest ih =>
    rcases ih h with h | h
    · exact .inl (List.mem_cons_of_mem d h)
    · rcases mem_insert h with rfl | h
      · exact .inl List.mem_cons_self
      · exact .inr h

theorem mem_ofList {entries : List (String × α)} {e : String × α} (h : e ∈ ofList entries) :
    e ∈ entries := by
  rcases mem_insertAll h with h | h
  · exact h
  · cases h

theorem mem_of_get? {name : String} {a : α} {fields : Fields α} (h : get? name fields = some a) :
    (name, a) ∈ fields := by
  induction fields with
  | nil => cases h
  | cons e rest ih =>
    obtain ⟨k, b⟩ := e
    by_cases hk : k = name
    · simp only [get?, hk, if_true, Option.some.injEq] at h
      simp [hk, h]
    · simp only [get?, hk, if_false] at h
      exact List.mem_cons_of_mem _ (ih h)

theorem length_eq_of_keys {as : Fields α} {bs : Fields β} (h : keys as = keys bs) :
    as.length = bs.length := by
  simpa only [keys, List.length_map] using congrArg List.length h

theorem name_eq_of_keys {as : Fields α} {bs : Fields β} (h : keys as = keys bs) {i : Nat}
    {p : String × α} {q : String × β} (hp : as[i]? = some p) (hq : bs[i]? = some q) :
    p.1 = q.1 := by
  have hname := congrArg (·[i]?) h
  simpa only [keys, List.getElem?_map, hp, hq, Option.map_some, Option.some.injEq] using hname

/-- Records of the same names have what is found under a name at the same place. -/
theorem exists_getElem?_of_get? {name : String} {as : Fields α} {bs : Fields β} {a : α} {b : β}
    (hkeys : keys as = keys bs) (ha : get? name as = some a) (hb : get? name bs = some b) :
    ∃ i : Nat, as[i]? = some (name, a) ∧ bs[i]? = some (name, b) := by
  induction as generalizing bs with
  | nil => cases ha
  | cons c as ih =>
    obtain ⟨k, x⟩ := c
    cases bs with
    | nil => cases hkeys
    | cons d bs =>
      obtain ⟨l, y⟩ := d
      obtain ⟨hkl, hrest⟩ := List.cons.inj hkeys
      obtain rfl : k = l := hkl
      by_cases hk : k = name
      · simp only [get?, hk, if_true, Option.some.injEq] at ha hb
        exact ⟨0, by simp [hk, ha], by simp [hk, hb]⟩
      · simp only [get?, hk, if_false] at ha hb
        obtain ⟨i, hi⟩ := ih hrest ha hb
        exact ⟨i + 1, hi⟩

theorem lookup_eq_get? (name : String) (fields : Fields α) :
    List.lookup name fields = get? name fields := by
  induction fields with
  | nil => rfl
  | cons e rest ih =>
    obtain ⟨k, a⟩ := e
    by_cases hk : k = name
    · simp [get?, hk]
    · have hne : (name == k) = false := beq_eq_false_iff_ne.2 (Ne.symm hk)
      simp only [List.lookup_cons, hne, get?, hk, if_false, ih]

/-- A search finds a new entry as if it stood in front of the others. -/
theorem lookup_insert (name : String) (a : α) (fields : Fields α) (other : String) :
    List.lookup other (insert name a fields) = List.lookup other ((name, a) :: fields) := by
  rw [lookup_eq_get?, List.lookup_cons]
  by_cases hother : other = name
  · rw [hother, get?_insert_self, beq_self_eq_true]
  · rw [get?_insert_of_ne hother, beq_eq_false_iff_ne.2 hother, lookup_eq_get?]

theorem get?_map (f : String → α → β) (name : String) (fields : Fields α) :
    get? name (fields.map fun e => (e.1, f e.1 e.2)) = (get? name fields).map (f name) := by
  induction fields with
  | nil => rfl
  | cons e rest ih =>
    by_cases hk : e.1 = name
    · simp [get?, hk]
    · simp only [List.map_cons, get?, hk, if_false]
      exact ih

theorem get?_filter (p : String → Bool) (name : String) (fields : Fields α) :
    get? name (fields.filter fun e => p e.1) = if p name then get? name fields else none := by
  induction fields with
  | nil => simp [get?]
  | cons e rest ih =>
    obtain ⟨k, a⟩ := e
    by_cases hk : k = name
    · subst hk
      by_cases hp : p k
      · simp [hp, get?]
      · simp only [List.filter_cons, hp]
        simpa [hp] using ih
    · by_cases hp : p k
      · simp only [List.filter_cons, hp, if_true, get?, hk, if_false, ih]
      · simp only [List.filter_cons, hp, get?, hk, if_false]
        exact ih

theorem sorted_filter {fields : Fields α} (h : Sorted fields) (p : String × α → Bool) :
    Sorted (fields.filter p) :=
  List.Pairwise.filter p h

/-- An entry that is added takes the place that its name has in the order. -/
theorem sorted_insert {fields : Fields α} (h : Sorted fields) (name : String) (a : α) :
    Sorted (insert name a fields) := by
  induction fields with
  | nil => exact List.pairwise_singleton _ _
  | cons e rest ih =>
    obtain ⟨hlt, hrest⟩ := List.pairwise_cons.1 h
    by_cases heq : name = e.1
    · rw [insert, if_pos heq]
      apply List.pairwise_cons.2
      refine ⟨?_, hrest⟩
      intro d hd
      rw [heq]
      exact hlt d hd
    · by_cases hname : name < e.1
      · rw [insert, if_neg heq, if_pos hname]
        apply List.pairwise_cons.2
        refine ⟨?_, h⟩
        intro d hd
        rcases List.mem_cons.1 hd with rfl | hd
        · exact hname
        · exact String.lt_trans hname (hlt d hd)
      · rw [insert, if_neg heq, if_neg hname]
        apply List.pairwise_cons.2
        refine ⟨?_, ih hrest⟩
        intro d hd
        rcases mem_insert hd with rfl | hd
        · have hge := String.not_lt.1 hname
          exact Std.lt_of_le_of_ne hge (Ne.symm heq)
        · exact hlt d hd

theorem get?_map_name (f : String → β) {name : String} {fields : Fields α}
    (h : name ∈ keys fields) :
    get? name (fields.map fun e => (e.1, f e.1)) = some (f name) := by
  obtain ⟨a, ha⟩ := exists_get?_of_mem_keys h
  have hget := get?_map (fun name (_ : α) => f name) name fields
  rw [ha] at hget
  exact hget

theorem get?_mapValues (f : α → β) (name : String) (fields : Fields α) :
    get? name (fields.mapValues f) = (get? name fields).map f :=
  get?_map (fun _ => f) name fields

theorem sorted_iff_keys (fields : Fields α) : Sorted fields ↔ (keys fields).Pairwise (· < ·) :=
  List.pairwise_map.symm

theorem keys_mapValues (f : α → β) (fields : Fields α) :
    keys (fields.mapValues f) = keys fields := by
  simp [keys, mapValues]

theorem sorted_mapValues (f : α → β) (fields : Fields α) :
    Sorted (fields.mapValues f) ↔ Sorted fields := by
  rw [sorted_iff_keys, sorted_iff_keys, keys_mapValues]

theorem get?_of_mem {name : String} {a : α} {fields : Fields α} (hs : Sorted fields)
    (h : (name, a) ∈ fields) : get? name fields = some a := by
  induction fields with
  | nil => cases h
  | cons e rest ih =>
    obtain ⟨k, b⟩ := e
    obtain ⟨hlt, hrest⟩ := List.pairwise_cons.1 hs
    rw [get?]
    cases h with
    | head => exact if_pos rfl
    | tail _ h =>
      have hne : k ≠ name := fun heq => absurd (heq ▸ hlt _ h) (String.lt_irrefl name)
      rw [if_neg hne]
      exact ih hrest h

/-- The entries that come after a name have none of the name. -/
theorem get?_eq_none_of_forall_lt {name : String} {fields : Fields α}
    (h : ∀ e ∈ fields, name < e.1) : get? name fields = none := by
  cases hget : get? name fields with
  | none => rfl
  | some a => exact absurd (h _ (mem_of_get? hget)) (String.lt_irrefl name)

theorem sorted_insertAll {fields : Fields α} (h : Sorted fields) (new : Fields α) :
    Sorted (insertAll new fields) := by
  induction new generalizing fields with
  | nil => exact h
  | cons e rest ih => exact ih (sorted_insert h e.1 e.2)

/-- What is added comes before what was there. -/
theorem get?_insertAll {new : Fields α} (h : Sorted new) (name : String) (fields : Fields α) :
    get? name (insertAll new fields) = (get? name new).or (get? name fields) := by
  induction new generalizing fields with
  | nil => rfl
  | cons e rest ih =>
    obtain ⟨k, a⟩ := e
    obtain ⟨hfirst, hrest⟩ := List.pairwise_cons.1 h
    refine (ih hrest (insert k a fields)).trans ?_
    by_cases hk : k = name
    · subst hk
      rw [get?_eq_none_of_forall_lt hfirst, get?_insert_self]
      simp [get?]
    · rw [get?_insert_of_ne (Ne.symm hk)]
      simp [get?, hk]

theorem get?_append (name : String) (as bs : Fields α) :
    get? name (as ++ bs) = (get? name as).or (get? name bs) := by
  induction as with
  | nil => rfl
  | cons e rest ih =>
    obtain ⟨k, a⟩ := e
    rw [List.cons_append, get?, get?]
    split
    · rfl
    · exact ih

/-- Of the entries with a name, the one that is added last is found. -/
theorem get?_insertAll_reverse (name : String) (new fields : Fields α) :
    get? name (insertAll new fields) = (get? name new.reverse).or (get? name fields) := by
  induction new generalizing fields with
  | nil => rfl
  | cons e rest ih =>
    obtain ⟨k, a⟩ := e
    refine (ih (insert k a fields)).trans ?_
    rw [List.reverse_cons, get?_append, Option.or_assoc]
    congr 1
    by_cases hk : k = name
    · subst hk
      rw [get?_insert_self]
      simp [get?]
    · rw [get?_insert_of_ne (Ne.symm hk)]
      simp [get?, hk]

theorem insertAll_append (as bs fields : Fields α) :
    insertAll (as ++ bs) fields = insertAll bs (insertAll as fields) :=
  List.foldl_append

/-- A name that is not there yet is added somewhere. -/
theorem insert_perm {name : String} {fields : Fields α}
    (h : get? name fields = none) (a : α) :
    (insert name a fields).Perm ((name, a) :: fields) := by
  induction fields with
  | nil => exact .refl _
  | cons e rest ih =>
    obtain ⟨k, b⟩ := e
    rw [get?] at h
    split at h
    · cases h
    · next hne =>
      rw [insert, if_neg (Ne.symm hne)]
      split
      · exact .refl _
      · exact ((ih h).cons (k, b)).trans (.swap (name, a) (k, b) rest)

theorem erase_sublist (name : String) (fields : Fields α) :
    (erase name fields).Sublist fields := by
  induction fields with
  | nil => exact .slnil
  | cons e rest ih =>
    obtain ⟨k, b⟩ := e
    rw [erase]
    split
    · exact List.sublist_cons_self (k, b) rest
    · exact ih.cons_cons (k, b)

theorem sorted_erase {fields : Fields α} (h : Sorted fields) (name : String) :
    Sorted (erase name fields) :=
  List.Pairwise.sublist (erase_sublist name fields) h

/-- Of the entries in order only the one of the name is taken away. -/
theorem get?_erase {fields : Fields α} (h : Sorted fields) (name other : String) :
    get? other (erase name fields) = if other = name then none else get? other fields := by
  induction fields with
  | nil => simp [erase, get?]
  | cons e rest ih =>
    obtain ⟨k, b⟩ := e
    obtain ⟨hlt, hrest⟩ := List.pairwise_cons.1 h
    rw [erase]
    by_cases hk : k = name
    · subst hk
      rw [if_pos rfl]
      split
      · next hother => rw [hother, get?_eq_none_of_forall_lt hlt]
      · next hother => rw [get?, if_neg (Ne.symm hother)]
    · rw [if_neg hk, get?, get?, ih hrest]
      by_cases hother : k = other
      · subst hother
        simp [hk]
      · rw [if_neg hother, if_neg hother]

/-- An entry whose name comes after all others is added at the end. -/
theorem insert_of_forall_lt {name : String} {fields : Fields α} (h : ∀ e ∈ fields, e.1 < name)
    (a : α) : insert name a fields = fields ++ [(name, a)] := by
  induction fields with
  | nil => rfl
  | cons e rest ih =>
    obtain ⟨hlt, hrest⟩ := List.forall_mem_cons.1 h
    have hne : name ≠ e.1 := fun he => String.lt_irrefl name (he ▸ hlt)
    have hnot : ¬ name < e.1 := String.lt_asymm hlt
    rw [insert, if_neg hne, if_neg hnot, ih hrest]
    rfl

theorem forall_lt_of_sorted_append {name : String} {a : α} {fields rest : Fields α}
    (h : Sorted (fields ++ (name, a) :: rest)) : ∀ e ∈ fields, e.1 < name :=
  fun e he => (List.pairwise_append.1 h).2.2 e he (name, a) List.mem_cons_self

theorem mapValues_insert (f : α → β) (name : String) (a : α) (fields : Fields α) :
    (insert name a fields).mapValues f = insert name (f a) (fields.mapValues f) := by
  induction fields with
  | nil => rfl
  | cons e rest ih =>
    obtain ⟨k, b⟩ := e
    simp only [mapValues, List.map_cons, insert] at ih ⊢
    split
    · rfl
    · split
      · rfl
      · rw [List.map_cons, ih]

/-- Records in order are the same if what they have under each name is. -/
theorem eq_of_get? {as bs : Fields α} (has : Sorted as) (hbs : Sorted bs)
    (h : ∀ name, get? name as = get? name bs) : as = bs := by
  have hfirst {name : String} {a : α} {rest cs : Fields α} (hcs : ∀ e ∈ cs, name < e.1) :
      get? name ((name, a) :: rest) ≠ get? name cs := by
    rw [get?_eq_none_of_forall_lt hcs, get?, if_pos rfl]
    exact Option.some_ne_none a
  induction as generalizing bs with
  | nil =>
    cases bs with
    | nil => rfl
    | cons d bs => exact absurd (h d.1).symm (hfirst (List.forall_mem_nil _))
  | cons c as ih =>
    obtain ⟨k, a⟩ := c
    obtain ⟨hk, hasRest⟩ := List.pairwise_cons.1 has
    cases bs with
    | nil => exact absurd (h k) (hfirst (List.forall_mem_nil _))
    | cons d bs =>
      obtain ⟨l, b⟩ := d
      obtain ⟨hl, hbsRest⟩ := List.pairwise_cons.1 hbs
      rcases Std.lt_trichotomy k l with hlt | heq | hlt
      · have hafter : ∀ e ∈ (l, b) :: bs, k < e.1 :=
          List.forall_mem_cons.2 ⟨hlt, fun e he => String.lt_trans hlt (hl e he)⟩
        exact absurd (h k) (hfirst hafter)
      · subst heq
        have hvalue : a = b := by simpa [get?] using h k
        have hrest : ∀ name, get? name as = get? name bs := by
          intro name
          by_cases hname : k = name
          · subst hname
            rw [get?_eq_none_of_forall_lt hk, get?_eq_none_of_forall_lt hl]
          · simpa only [get?, hname, if_false] using h name
        rw [hvalue, ih hasRest hbsRest hrest]
      · have hafter : ∀ e ∈ (k, a) :: as, l < e.1 :=
          List.forall_mem_cons.2 ⟨hlt, fun e he => String.lt_trans hlt (hk e he)⟩
        exact absurd (h l).symm (hfirst hafter)

namespace Related

variable {R : α → β → Prop} {as : Fields α} {bs : Fields β}

theorem get? (h : Related R as bs) (name : String) :
    Option.Rel R (Fields.get? name as) (Fields.get? name bs) := by
  induction h with
  | nil => exact .none
  | cons hab _ ih =>
    simp only [Fields.get?]
    split
    · exact .some hab
    · exact ih

theorem mono {S : α → β → Prop} (hRS : ∀ a b, R a b → S a b) (h : Related R as bs) :
    Related S as bs := by
  induction h with
  | nil => exact .nil
  | cons hab _ ih => exact .cons (hRS _ _ hab) ih

/-- Records of the same names, in order, are related if what they have under each name is. -/
theorem of_get? (hs : Sorted bs) (hkeys : keys as = keys bs)
    (h : ∀ name a b, Fields.get? name as = some a → Fields.get? name bs = some b → R a b) :
    Related R as bs := by
  induction bs generalizing as with
  | nil =>
    have has : as = [] := List.map_eq_nil_iff.1 hkeys
    rw [has]
    exact .nil
  | cons d bs ih =>
    obtain ⟨k, b⟩ := d
    cases as with
    | nil => cases hkeys
    | cons c as =>
      obtain ⟨l, a⟩ := c
      obtain ⟨hl, hrest⟩ := List.cons.inj hkeys
      have hkl : l = k := hl
      subst hkl
      obtain ⟨hlt, hs⟩ := List.pairwise_cons.1 hs
      have hab : R a b := h l a b (by simp [Fields.get?]) (by simp [Fields.get?])
      refine .cons hab (ih hs hrest fun name x y hx hy => ?_)
      have hne : l ≠ name := by
        intro hn
        subst hn
        exact String.lt_irrefl l (hlt _ (mem_of_get? hy))
      apply h name x y
      · simpa [Fields.get?, hne] using hx
      · simpa [Fields.get?, hne] using hy

theorem insert {a : α} {b : β} (h : Related R as bs) (name : String) (hab : R a b) :
    Related R (Fields.insert name a as) (Fields.insert name b bs) := by
  induction h with
  | nil => exact .cons hab .nil
  | cons hcd hrest ih =>
    simp only [Fields.insert]
    split
    · exact .cons hab hrest
    · split
      · exact .cons hab (.cons hcd hrest)
      · exact .cons hcd ih

theorem insertAll {new : Fields α} {new' : Fields β} (hnew : Related R new new')
    (h : Related R as bs) : Related R (Fields.insertAll new as) (Fields.insertAll new' bs) := by
  induction hnew generalizing as bs with
  | nil => exact h
  | cons hab _ ih => exact ih (h.insert _ hab)

theorem ofList {entries : Fields α} {entries' : Fields β} (h : Related R entries entries') :
    Related R (Fields.ofList entries) (Fields.ofList entries') :=
  h.insertAll .nil

theorem mapValues {γ δ : Type} {T : γ → δ → Prop} {f : α → γ} {g : β → δ}
    (hf : ∀ a b, R a b → T (f a) (g b)) (h : Related R as bs) :
    Related T (Fields.mapValues f as) (Fields.mapValues g bs) := by
  induction h with
  | nil => exact .nil
  | cons hab _ ih => exact .cons (hf _ _ hab) ih

end Related

end StaticConfig.Fields

import StaticConfig.Proofs.Comparison.Over
import StaticConfig.Proofs.Conversion.Collected

/-!
The equality that sets go by, on values whose numbers are of a class in which equality is
transitive. There it does not matter which of several equal items a set keeps: sets made of equal
items are equal, and marks may be taken off before or after equal items are dropped.
-/
namespace StaticConfig.Value

variable {S : Number → Prop}

/-! The order of the two values. -/

mutual

theorem same_comm : ∀ v w : Value, same v w = same w v
  | .null t, w => by cases w <;> first | exact Bool.beq_comm | rfl
  | .unknown t, w => by cases w <;> first | exact Bool.beq_comm | rfl
  | .bool b, w => by cases w <;> first | exact Bool.beq_comm | rfl
  | .number n, w => by cases w <;> first | exact Number.eq_comm _ _ | rfl
  | .string s, w => by cases w <;> first | exact Bool.beq_comm | rfl
  | .list t vs, w => by
    cases w with
    | list u ws => simp only [same, sameAll_comm vs ws, Bool.beq_comm (a := t)]
    | _ => rfl
  | .set t vs, w => by
    cases w with
    | set u ws => simp only [same, sameAll_comm vs ws, Bool.beq_comm (a := t)]
    | _ => rfl
  | .map t vs, w => by
    cases w with
    | map u ws => simp only [same, sameFields_comm vs ws, Bool.beq_comm (a := t)]
    | _ => rfl
  | .tuple vs, w => by
    cases w with
    | tuple ws => exact sameAll_comm vs ws
    | _ => rfl
  | .object vs, w => by
    cases w with
    | object ws => exact sameFields_comm vs ws
    | _ => rfl
  | .sensitive v, w => by
    cases w with
    | sensitive w => exact same_comm v w
    | _ => rfl

theorem sameAll_comm : ∀ vs ws : List Value, sameAll vs ws = sameAll ws vs
  | [], [] | [], _ :: _ | _ :: _, [] => rfl
  | v :: vs, w :: ws => by rw [sameAll, sameAll, same_comm v w, sameAll_comm vs ws]

theorem sameFields_comm : ∀ as bs : List (String × Value), sameFields as bs = sameFields bs as
  | [], [] | [], _ :: _ | _ :: _, [] => rfl
  | (k, v) :: as, (l, w) :: bs => by
    rw [sameFields, sameFields, same_comm v w, sameFields_comm as bs, Bool.beq_comm (a := k)]

end

/-- Collections are compared by what they declare to hold and by what they hold. -/
theorem and_beq_trans {t u x : Ty} {p q r : Bool} (hpqr : p = true → q = true → r = true)
    (h : (t == u && p) = true) (h' : (u == x && q) = true) : (t == x && r) = true := by
  obtain ⟨ht, hp⟩ := Bool.and_eq_true_iff.1 h
  obtain ⟨hu, hq⟩ := Bool.and_eq_true_iff.1 h'
  rw [eq_of_beq ht]
  exact Bool.and_eq_true_iff.2 ⟨hu, hpqr hp hq⟩

mutual

theorem same_trans (hS : Number.Coherent S) : ∀ {u v w : Value}, u.Over S → v.Over S →
    w.Over S → same u v = true → same v w = true → same u w = true
  | .null t, v, w, _, _, _, h, h' => by
    cases v with
    | null => obtain rfl := eq_of_beq h; exact h'
    | _ => cases h
  | .unknown t, v, w, _, _, _, h, h' => by
    cases v with
    | unknown => obtain rfl := eq_of_beq h; exact h'
    | _ => cases h
  | .bool b, v, w, _, _, _, h, h' => by
    cases v with
    | bool => obtain rfl := eq_of_beq h; exact h'
    | _ => cases h
  | .string s, v, w, _, _, _, h, h' => by
    cases v with
    | string => obtain rfl := eq_of_beq h; exact h'
    | _ => cases h
  | .number n, v, w, hu, hv, hw, h, h' => by
    cases hu with
    | number hn =>
      cases hv with
      | number hm =>
        cases hw with
        | number hk => exact Number.eq_trans hS hn hm hk h h'
        | _ => cases h'
      | _ => cases h
  | .list t us, v, w, hu, hv, hw, h, h' => by
    cases hu with
    | list hus =>
      cases hv with
      | list hvs =>
        cases hw with
        | list hws =>
          exact and_beq_trans (sameAll_trans hS hus hvs hws) h h'
        | _ => cases h'
      | _ => cases h
  | .set t us, v, w, hu, hv, hw, h, h' => by
    cases hu with
    | set hus =>
      cases hv with
      | set hvs =>
        cases hw with
        | set hws =>
          exact and_beq_trans (sameAll_trans hS hus hvs hws) h h'
        | _ => cases h'
      | _ => cases h
  | .map t us, v, w, hu, hv, hw, h, h' => by
    cases hu with
    | map hus =>
      cases hv with
      | map hvs =>
        cases hw with
        | map hws =>
          exact and_beq_trans (sameFields_trans hS hus hvs hws) h h'
        | _ => cases h'
      | _ => cases h
  | .tuple us, v, w, hu, hv, hw, h, h' => by
    cases hu with
    | tuple hus =>
      cases hv with
      | tuple hvs =>
        cases hw with
        | tuple hws => exact sameAll_trans hS hus hvs hws h h'
        | _ => cases h'
      | _ => cases h
  | .object us, v, w, hu, hv, hw, h, h' => by
    cases hu with
    | object hus =>
      cases hv with
      | object hvs =>
        cases hw with
        | object hws => exact sameFields_trans hS hus hvs hws h h'
        | _ => cases h'
      | _ => cases h
  | .sensitive u, v, w, hu, hv, hw, h, h' => by
    cases hu with
    | sensitive hiu =>
      cases hv with
      | sensitive hiv =>
        cases hw with
        | @sensitive w hiw =>
          show same u w = true
          exact same_trans hS hiu hiv hiw h h'
        | _ => cases h'
      | _ => cases h

theorem sameAll_trans (hS : Number.Coherent S) : ∀ {us vs ws : List Value},
    (∀ u ∈ us, u.Over S) → (∀ v ∈ vs, v.Over S) → (∀ w ∈ ws, w.Over S) →
    sameAll us vs = true → sameAll vs ws = true → sameAll us ws = true
  | [], [], _, _, _, _, _, h' => h'
  | u :: us, v :: vs, w :: ws, hu, hv, hw, h, h' => by
    obtain ⟨hu, hus⟩ := List.forall_mem_cons.1 hu
    obtain ⟨hv, hvs⟩ := List.forall_mem_cons.1 hv
    obtain ⟨hw, hws⟩ := List.forall_mem_cons.1 hw
    obtain ⟨hfirst, hrest⟩ := Bool.and_eq_true_iff.1 h
    obtain ⟨hfirst', hrest'⟩ := Bool.and_eq_true_iff.1 h'
    exact Bool.and_eq_true_iff.2
      ⟨same_trans hS hu hv hw hfirst hfirst', sameAll_trans hS hus hvs hws hrest hrest'⟩

theorem sameFields_trans (hS : Number.Coherent S) : ∀ {as bs cs : List (String × Value)},
    (∀ p ∈ as, p.2.Over S) → (∀ p ∈ bs, p.2.Over S) → (∀ p ∈ cs, p.2.Over S) →
    sameFields as bs = true → sameFields bs cs = true → sameFields as cs = true
  | [], [], _, _, _, _, _, h' => h'
  | (k, u) :: as, (l, v) :: bs, (m, w) :: cs, hu, hv, hw, h, h' => by
    obtain ⟨hu, has⟩ := List.forall_mem_cons.1 hu
    obtain ⟨hv, hbs⟩ := List.forall_mem_cons.1 hv
    obtain ⟨hw, hcs⟩ := List.forall_mem_cons.1 hw
    obtain ⟨hfirst, hrest⟩ := Bool.and_eq_true_iff.1 h
    obtain ⟨hfirst', hrest'⟩ := Bool.and_eq_true_iff.1 h'
    obtain ⟨hk, hsame⟩ := Bool.and_eq_true_iff.1 hfirst
    obtain ⟨hl, hsame'⟩ := Bool.and_eq_true_iff.1 hfirst'
    obtain rfl := eq_of_beq hk
    exact Bool.and_eq_true_iff.2 ⟨Bool.and_eq_true_iff.2 ⟨hl, same_trans hS hu hv hw hsame hsame'⟩,
      sameFields_trans hS has hbs hcs hrest hrest'⟩

end

/-! Dropping equal items. -/

theorem distinctFrom_append (kept vs ws : List Value) :
    distinctFrom kept (vs ++ ws) = distinctFrom (distinctFrom kept vs) ws := by
  induction vs generalizing kept with
  | nil => rfl
  | cons v vs ih =>
    rw [List.cons_append, distinctFrom, distinctFrom]
    split
    · exact ih kept
    · exact ih (kept ++ [v])

/-- What equals an item still equals one after equal items were dropped. -/
theorem exists_same_distinctFrom (hS : Number.Coherent S) {kept items : List Value}
    (hkept : ∀ k ∈ kept, k.Over S) (hitems : ∀ v ∈ items, v.Over S) {v w : Value}
    (hw : w.Over S) (hv : v ∈ kept ∨ v ∈ items) (h : same v w = true) :
    ∃ d ∈ distinctFrom kept items, same d w = true := by
  induction items generalizing kept v with
  | nil => exact ⟨v, hv.resolve_right List.not_mem_nil, h⟩
  | cons u us ih =>
    obtain ⟨hu, hus⟩ := List.forall_mem_cons.1 hitems
    rw [distinctFrom]
    split
    · rename_i hany
      obtain ⟨k, hk, hsame⟩ := List.any_eq_true.1 hany
      rcases hv with hv | hv
      · exact ih hkept hus (.inl hv) h
      · rcases List.mem_cons.1 hv with rfl | hv
        · exact ih hkept hus (.inl hk) (same_trans hS (hkept k hk) hu hw hsame h)
        · exact ih hkept hus (.inr hv) h
    · have hkept' : ∀ k ∈ kept ++ [u], k.Over S :=
        List.forall_mem_append.2 ⟨hkept, List.forall_mem_singleton.2 hu⟩
      refine ih hkept' hus ?_ h
      rcases hv with hv | hv
      · exact .inl (List.mem_append_left _ hv)
      · rcases List.mem_cons.1 hv with rfl | hv
        · exact .inl (List.mem_append_right _ List.mem_cons_self)
        · exact .inr hv

theorem sameAll_iff {as bs : List Value} :
    sameAll as bs = true ↔ List.Forall₂ (fun a b => same a b = true) as bs := by
  induction as generalizing bs with
  | nil =>
    rw [List.forall₂_nil_left_iff]
    cases bs with
    | nil => exact ⟨fun _ => rfl, fun _ => rfl⟩
    | cons b bs => exact ⟨nofun, nofun⟩
  | cons a as ih =>
    cases bs with
    | nil => exact ⟨nofun, nofun⟩
    | cons b bs => rw [sameAll, Bool.and_eq_true, List.forall₂_cons, ih]

theorem exists_mem_of_forall₂ {α β : Type} {R : α → β → Prop} {as : List α} {bs : List β}
    (h : List.Forall₂ R as bs) {a : α} (ha : a ∈ as) : ∃ b ∈ bs, R a b := by
  induction h with
  | nil => cases ha
  | cons hab _ ih =>
    rcases List.mem_cons.1 ha with rfl | ha
    · exact ⟨_, List.mem_cons_self, hab⟩
    · obtain ⟨b, hb, h⟩ := ih ha
      exact ⟨b, List.mem_cons_of_mem _ hb, h⟩

/-- Whether an item equals one of several does not change when each is replaced by an equal one. -/
theorem any_same_of_sameAll (hS : Number.Coherent S) {ks ls : List Value} {v w : Value}
    (hks : ∀ k ∈ ks, k.Over S) (hls : ∀ l ∈ ls, l.Over S) (hv : v.Over S) (hw : w.Over S)
    (hall : sameAll ks ls = true) (h : same v w = true)
    (hany : (ks.any fun k => same k v) = true) : (ls.any fun l => same l w) = true := by
  obtain ⟨k, hk, hkv⟩ := List.any_eq_true.1 hany
  obtain ⟨l, hl, hkl⟩ := exists_mem_of_forall₂ (sameAll_iff.1 hall) hk
  have hlk : same l k = true := (same_comm l k).trans hkl
  have hlv := same_trans hS (hls l hl) (hks k hk) hv hlk hkv
  exact List.any_eq_true.2 ⟨l, hl, same_trans hS (hls l hl) hv hw hlv h⟩

theorem sameAll_distinctFrom (hS : Number.Coherent S) {ks ls vs ws : List Value}
    (hks : ∀ k ∈ ks, k.Over S) (hls : ∀ l ∈ ls, l.Over S) (hvs : ∀ v ∈ vs, v.Over S)
    (hws : ∀ w ∈ ws, w.Over S) (hkept : sameAll ks ls = true) (h : sameAll vs ws = true) :
    sameAll (distinctFrom ks vs) (distinctFrom ls ws) = true := by
  induction vs generalizing ks ls ws with
  | nil =>
    cases ws with
    | nil => exact hkept
    | cons w ws => cases h
  | cons v vs ih =>
    cases ws with
    | nil => cases h
    | cons w ws =>
      obtain ⟨hv, hvs⟩ := List.forall_mem_cons.1 hvs
      obtain ⟨hw, hws⟩ := List.forall_mem_cons.1 hws
      obtain ⟨hvw, hrest⟩ := Bool.and_eq_true_iff.1 h
      have hany : (ks.any fun k => same k v) = ls.any fun l => same l w :=
        Bool.eq_iff_iff.2 ⟨any_same_of_sameAll hS hks hls hv hw hkept hvw,
          any_same_of_sameAll hS hls hks hw hv ((sameAll_comm ls ks).trans hkept)
            ((same_comm w v).trans hvw)⟩
      rw [distinctFrom, distinctFrom, hany]
      split
      · exact ih hks hls hvs hws hkept hrest
      · refine ih ?_ ?_ hvs hws ?_ hrest
        · exact List.forall_mem_append.2 ⟨hks, List.forall_mem_singleton.2 hv⟩
        · exact List.forall_mem_append.2 ⟨hls, List.forall_mem_singleton.2 hw⟩
        · exact sameAll_iff.2 (List.rel_append (sameAll_iff.1 hkept) (.cons hvw .nil))

/-! Taking off the marks. -/

mutual

/-- Values that are equal with their marks are equal without them. -/
theorem same_bare (hS : Number.Coherent S) : ∀ {v w : Value}, v.Over S → w.Over S →
    same v w = true → same v.bare w.bare = true
  | .null t, w, _, _, h => by
    cases w with
    | null => exact h
    | _ => cases h
  | .unknown t, w, _, _, h => by
    cases w with
    | unknown => exact h
    | _ => cases h
  | .bool b, w, _, _, h => by
    cases w with
    | bool => exact h
    | _ => cases h
  | .number n, w, _, _, h => by
    cases w with
    | number => exact h
    | _ => cases h
  | .string s, w, _, _, h => by
    cases w with
    | string => exact h
    | _ => cases h
  | .list t vs, w, hv, hw, h => by
    cases w with
    | list u ws =>
      obtain ⟨ht, hall⟩ := Bool.and_eq_true_iff.1 h
      exact Bool.and_eq_true_iff.2
        ⟨ht, sameAll_bareAll hS (partwise_over.list.1 hv) (partwise_over.list.1 hw) hall⟩
    | _ => cases h
  | .set t vs, w, hv, hw, h => by
    cases w with
    | set u ws =>
      obtain ⟨ht, hall⟩ := Bool.and_eq_true_iff.1 h
      have hvs := partwise_over.set.1 hv
      have hws := partwise_over.set.1 hw
      refine Bool.and_eq_true_iff.2 ⟨ht, ?_⟩
      exact sameAll_distinctFrom hS (List.forall_mem_nil _) (List.forall_mem_nil _)
        (partwise_over.bareAll vs hvs) (partwise_over.bareAll ws hws) rfl
        (sameAll_bareAll hS hvs hws hall)
    | _ => cases h
  | .map t vs, w, hv, hw, h => by
    cases w with
    | map u ws =>
      obtain ⟨ht, hall⟩ := Bool.and_eq_true_iff.1 h
      exact Bool.and_eq_true_iff.2
        ⟨ht, sameFields_bareFields hS (partwise_over.map.1 hv) (partwise_over.map.1 hw) hall⟩
    | _ => cases h
  | .tuple vs, w, hv, hw, h => by
    cases w with
    | tuple ws => exact sameAll_bareAll hS (partwise_over.tuple.1 hv) (partwise_over.tuple.1 hw) h
    | _ => cases h
  | .object vs, w, hv, hw, h => by
    cases w with
    | object ws =>
      exact sameFields_bareFields hS (partwise_over.object.1 hv) (partwise_over.object.1 hw) h
    | _ => cases h
  | .sensitive v, w, hv, hw, h => by
    cases w with
    | sensitive w =>
      show same v.bare w.bare = true
      exact same_bare hS (partwise_over.inner hv) (partwise_over.inner hw) h
    | _ => cases h

theorem sameAll_bareAll (hS : Number.Coherent S) : ∀ {vs ws : List Value},
    (∀ v ∈ vs, v.Over S) → (∀ w ∈ ws, w.Over S) → sameAll vs ws = true →
    sameAll (bareAll vs) (bareAll ws) = true
  | [], [], _, _, _ => rfl
  | v :: vs, w :: ws, hv, hw, h => by
    obtain ⟨hv, hvs⟩ := List.forall_mem_cons.1 hv
    obtain ⟨hw, hws⟩ := List.forall_mem_cons.1 hw
    obtain ⟨hfirst, hrest⟩ := Bool.and_eq_true_iff.1 h
    exact Bool.and_eq_true_iff.2 ⟨same_bare hS hv hw hfirst, sameAll_bareAll hS hvs hws hrest⟩

theorem sameFields_bareFields (hS : Number.Coherent S) : ∀ {as bs : List (String × Value)},
    (∀ p ∈ as, p.2.Over S) → (∀ p ∈ bs, p.2.Over S) → sameFields as bs = true →
    sameFields (bareFields as) (bareFields bs) = true
  | [], [], _, _, _ => rfl
  | (k, v) :: as, (l, w) :: bs, hv, hw, h => by
    obtain ⟨hv, has⟩ := List.forall_mem_cons.1 hv
    obtain ⟨hw, hbs⟩ := List.forall_mem_cons.1 hw
    obtain ⟨hfirst, hrest⟩ := Bool.and_eq_true_iff.1 h
    obtain ⟨hk, hsame⟩ := Bool.and_eq_true_iff.1 hfirst
    exact Bool.and_eq_true_iff.2 ⟨Bool.and_eq_true_iff.2 ⟨hk, same_bare hS hv hw hsame⟩,
      sameFields_bareFields hS has hbs hrest⟩

end

/-- An item that was dropped because it equals one that is kept is dropped as well when the marks
were taken off first. -/
theorem distinctFrom_bare (hS : Number.Coherent S) {kept items : List Value}
    (hkept : ∀ k ∈ kept, k.Over S) (hitems : ∀ v ∈ items, v.Over S) :
    distinctFrom [] ((distinctFrom kept items).map bare) =
      distinctFrom (distinctFrom [] (kept.map bare)) (items.map bare) := by
  induction items generalizing kept with
  | nil => rfl
  | cons u us ih =>
    obtain ⟨hu, hus⟩ := List.forall_mem_cons.1 hitems
    rw [distinctFrom, List.map_cons]
    split
    · rename_i hany
      obtain ⟨k, hk, hsame⟩ := List.any_eq_true.1 hany
      have hbare : ∀ w ∈ kept.map bare, w.Over S := by
        rw [← bareAll_eq_map]
        exact partwise_over.bareAll kept hkept
      have hsame' : same k.bare u.bare = true := same_bare hS (hkept k hk) hu hsame
      obtain ⟨d, hd, hdu⟩ := exists_same_distinctFrom hS (List.forall_mem_nil _) hbare
        (partwise_over.bare u hu) (.inr (List.mem_map_of_mem hk)) hsame'
      rw [ih hkept hus, distinctFrom, if_pos (List.any_eq_true.2 ⟨d, hd, hdu⟩)]
    · have hkept' : ∀ k ∈ kept ++ [u], k.Over S :=
        List.forall_mem_append.2 ⟨hkept, List.forall_mem_singleton.2 hu⟩
      rw [ih hkept' hus, List.map_append, distinctFrom_append, ← distinctFrom_append,
        List.map_singleton, List.singleton_append]

/-- Taking the marks off a set is making the set of its elements without marks. -/
theorem bare_setOf (hS : Number.Coherent S) (e : Ty) {items : List Value}
    (hitems : ∀ v ∈ items, v.Over S) : (setOf e items).bare = setOf e (items.map bare) := by
  rw [setOf, bare, bareAll_eq_map, setOf, distinctFrom_bare hS (List.forall_mem_nil _) hitems]
  rfl

end StaticConfig.Value

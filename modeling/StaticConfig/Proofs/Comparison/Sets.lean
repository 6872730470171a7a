import StaticConfig.Builtin.Conversions
import StaticConfig.Proofs.Comparison.Same
import StaticConfig.Proofs.Conversion.Exact
import StaticConfig.Proofs.Unification.Rules
import StaticConfig.Value.Equal

/-!
Comparison of sets. A set keeps its elements in the order in which they were put in, and sets are
compared element by element in this order. So equal sets have the same elements, but sets of the
same elements may differ: a set equals all sets made of the same items in other orders only if it
has at most one element.
-/
namespace StaticConfig.Value

open StaticConfig.Builtin.Conversions (into)

variable {S : Number → Prop}

/-! What equal values have in common. -/

theorem isNull_eq_of_same : ∀ {v w : Value}, same v w = true → v.isNull = w.isNull
  | .sensitive v, w, h => by
    cases w with
    | sensitive w =>
      show v.isNull = w.isNull
      exact isNull_eq_of_same h
    | _ => cases h
  | .null _, w, h => by cases w <;> first | rfl | cases h
  | .unknown _, w, h | .bool _, w, h | .number _, w, h | .string _, w, h => by
    cases w <;> first | rfl | cases h
  | .list _ _, w, h | .set _ _, w, h | .map _ _, w, h | .tuple _, w, h | .object _, w, h => by
    cases w <;> first | rfl | cases h

mutual

theorem ty_eq_of_same : ∀ {v w : Value}, same v w = true → v.ty = w.ty
  | .sensitive v, w, h => by
    cases w with
    | sensitive w =>
      show v.ty = w.ty
      exact ty_eq_of_same h
    | _ => cases h
  | .null t, w, h => by
    cases w with
    | null => exact eq_of_beq h
    | _ => cases h
  | .unknown t, w, h => by
    cases w with
    | unknown => exact eq_of_beq h
    | _ => cases h
  | .bool _, w, h | .number _, w, h | .string _, w, h => by
    cases w <;> first | rfl | cases h
  | .list t _, w, h => by
    cases w with
    | list => exact congrArg Ty.list (eq_of_beq (Bool.and_eq_true_iff.1 h).1)
    | _ => cases h
  | .set t _, w, h => by
    cases w with
    | set => exact congrArg Ty.set (eq_of_beq (Bool.and_eq_true_iff.1 h).1)
    | _ => cases h
  | .map t _, w, h => by
    cases w with
    | map => exact congrArg Ty.map (eq_of_beq (Bool.and_eq_true_iff.1 h).1)
    | _ => cases h
  | .tuple vs, w, h => by
    cases w with
    | tuple ws => exact congrArg Ty.tuple (types_eq_of_sameAll h)
    | _ => cases h
  | .object as, w, h => by
    cases w with
    | object bs => exact congrArg Ty.plainObject (fieldTypes_eq_of_sameFields h)
    | _ => cases h

theorem types_eq_of_sameAll : ∀ {vs ws : List Value}, sameAll vs ws = true → types vs = types ws
  | [], [], _ => rfl
  | v :: vs, w :: ws, h => by
    obtain ⟨hfirst, hrest⟩ := Bool.and_eq_true_iff.1 h
    rw [types, types, ty_eq_of_same hfirst, types_eq_of_sameAll hrest]

theorem fieldTypes_eq_of_sameFields : ∀ {as bs : List (String × Value)},
    sameFields as bs = true → fieldTypes as = fieldTypes bs
  | [], [], _ => rfl
  | (k, v) :: as, (l, w) :: bs, h => by
    obtain ⟨hfirst, hrest⟩ := Bool.and_eq_true_iff.1 h
    obtain ⟨hk, hsame⟩ := Bool.and_eq_true_iff.1 hfirst
    rw [fieldTypes, fieldTypes, eq_of_beq hk, ty_eq_of_same hsame,
      fieldTypes_eq_of_sameFields hrest]

end

theorem equal?_of_same {v w : Value} (hv : v.isWhollyKnown = true) (hw : w.isWhollyKnown = true)
    (h : same v.bare w.bare = true) : equal? v w = some true := by
  have hv := Hereditary.whollyKnown.bare v hv
  have hw := Hereditary.whollyKnown.bare w hw
  have hnull := isNull_eq_of_same h
  have hty := ty_eq_of_same h
  cases hn : w.bare.isNull with
  | true =>
    simp [equal?, hnull, hn, isKnown_of_isWhollyKnown hv, isKnown_of_isWhollyKnown hw]
  | false => simp [equal?, hnull, hn, hv, hw, hty, h]

/-- Sets are equal when they have the same element type and equal elements in the same order. -/
theorem equal?_set_iff {a b : Value} {t u : Ty} {as bs : List Value} (ha : a.bare = set t as)
    (hb : b.bare = set u bs) : equal? a b = some true ↔
      allKnown as = true ∧ allKnown bs = true ∧ t = u ∧ sameAll as bs = true := by
  simp only [equal?, ha, hb, isNull, isWhollyKnown, ty, same]
  by_cases ht : t = u
  · cases allKnown as <;> cases allKnown bs <;> simp [ht]
  · cases allKnown as <;> cases allKnown bs <;> simp [ht]

theorem exists_equal?_of_sameAll {a b : Value} {t u : Ty} {as bs : List Value}
    (ha : a.bare = set t as) (hb : b.bare = set u bs) (hka : allKnown as = true)
    (hkb : allKnown bs = true) (h : sameAll as bs = true) :
    ∀ x ∈ as, ∃ y ∈ bs, equal? x y = some true := by
  intro x hx
  obtain ⟨y, hy, hsame⟩ := exists_mem_of_forall₂ (sameAll_iff.1 h) hx
  have hxbare := bare_of_mem_items? (congrArg items? ha) x hx
  have hybare := bare_of_mem_items? (congrArg items? hb) y hy
  refine ⟨y, hy, equal?_of_same (allKnown_iff.1 hka x hx) (allKnown_iff.1 hkb y hy) ?_⟩
  rw [hxbare, hybare]
  exact hsame

/-! Conversion to a set. -/

theorem convertItems_eq_ok_iff {items rs : List Value} {t : Ty} {start : Nat} :
    convertItems start items t = .ok rs ↔
      List.Forall₂ (fun a r => convert a t = .ok r) items rs := by
  induction items generalizing start rs with
  | nil =>
    rw [convertItems, List.forall₂_nil_left_iff]
    exact ⟨fun h => (Except.ok.inj h).symm, fun h => congrArg Except.ok h.symm⟩
  | cons v vs ih =>
    rw [convertItems, List.forall₂_cons_left_iff]
    cases hv : convert v t with
    | error e => simp
    | ok x =>
      simp only [Except.map_eq_ok, ih, Except.ok.injEq]
      constructor
      · rintro ⟨more, hmore, rfl⟩
        exact ⟨x, more, rfl, hmore, rfl⟩
      · rintro ⟨y, more, rfl, hmore, rfl⟩
        exact ⟨more, hmore, rfl⟩

theorem convert_set_eq_ok_iff {v a : Value} {items : List Value} {e : Ty}
    (hitems : v.items? = some items) : convert v (.set e) = .ok a ↔
      ∃ t rs, elementTarget .mixedElements e (types items) = .ok t ∧
        List.Forall₂ (fun x r => convert x t = .ok r) items rs ∧ a = setOf t rs := by
  have hconvert : convert v (.set e) = (do
      let t ← elementTarget .mixedElements e (types items)
      (convertItems 0 items t).map (setOf t)) := by
    cases v with
    | list u vs => cases hitems; rfl
    | set u vs => cases hitems; rfl
    | tuple vs => cases hitems; rfl
    | _ => cases hitems
  rw [hconvert, Except.bind_eq_ok]
  refine exists_congr fun t => ?_
  rw [Except.map_eq_ok]
  simp only [convertItems_eq_ok_iff]
  constructor
  · rintro ⟨ht, rs, hrs, rfl⟩
    exact ⟨rs, ht, hrs, rfl⟩
  · rintro ⟨rs, ht, hrs, rfl⟩
    exact ⟨ht, rs, hrs, rfl⟩

theorem elementTarget_perm {items others : List Value} (h : others.Perm items)
    (fault : ConversionFault) (e : Ty) :
    elementTarget fault e (types others) = elementTarget fault e (types items) := by
  have hunify : Ty.unify (types others) = Ty.unify (types items) := by
    rw [types_eq_map, types_eq_map]
    exact Ty.unify_congr fun t => (h.map ty).mem_iff
  rw [elementTarget, elementTarget, hunify]

/-! Items in another order. -/

/-- If a set made of some items has at most one element, so have all sets made of the same items,
and their elements are equal. -/
theorem sameAll_of_length_le_one (hS : Number.Coherent S) (hself : ∀ n, S n → n.eq n = true)
    {vs ws : List Value} (hvs : ∀ v ∈ vs, v.Over S) (hmem : ∀ v, v ∈ ws ↔ v ∈ vs)
    (hlength : (distinctFrom [] vs).length ≤ 1) :
    sameAll (distinctFrom [] vs) (distinctFrom [] ws) = true := by
  have hws : ∀ w ∈ ws, w.Over S := fun w hw => hvs w ((hmem w).1 hw)
  have reach {us : List Value} (hus : ∀ u ∈ us, u.Over S) {u : Value} (hu : u ∈ us) :
      ∃ d ∈ distinctFrom [] us, same d u = true :=
    exists_same_distinctFrom hS (List.forall_mem_nil _) hus (hus u hu) (.inr hu)
      ((hus u hu).same_self hself)
  have hkept {us : List Value} {d : Value} (hd : d ∈ distinctFrom [] us) : d ∈ us :=
    (mem_distinctFrom hd).resolve_left List.not_mem_nil
  cases hvs' : distinctFrom [] vs with
  | nil =>
    have hnil : ws = [] := List.eq_nil_iff_forall_not_mem.2 fun w hw => by
      obtain ⟨d, hd, -⟩ := reach hvs ((hmem w).1 hw)
      rw [hvs'] at hd
      cases hd
    rw [hnil]
    rfl
  | cons i rest =>
    obtain rfl : rest = [] := List.length_eq_zero_iff.1 (by
      rw [hvs', List.length_cons] at hlength
      omega)
    have hi : i ∈ vs := hkept (hvs' ▸ List.mem_cons_self)
    have hall (w : Value) (hw : w ∈ ws) : same i w = true := by
      obtain ⟨d, hd, hsame⟩ := reach hvs ((hmem w).1 hw)
      rw [hvs'] at hd
      exact List.mem_singleton.1 hd ▸ hsame
    cases hws' : distinctFrom [] ws with
    | nil =>
      obtain ⟨d, hd, -⟩ := reach hws ((hmem i).2 hi)
      rw [hws'] at hd
      cases hd
    | cons j others =>
      have hj : j ∈ ws := hkept (hws' ▸ List.mem_cons_self)
      cases others with
      | nil => exact Bool.and_eq_true_iff.2 ⟨hall j hj, rfl⟩
      | cons k others =>
        have hk : k ∈ ws := hkept (hws' ▸ List.mem_cons_of_mem j List.mem_cons_self)
        have hji : same j i = true := (same_comm j i).trans (hall j hj)
        have hjk : same j k = true :=
          same_trans hS (hws j hj) (hvs i hi) (hws k hk) hji (hall k hk)
        have hdistinct : (distinctFrom [] ws).Pairwise fun v w => same v w = false :=
          pairwise_distinctFrom .nil
        rw [hws'] at hdistinct
        obtain ⟨hfirst, -⟩ := List.pairwise_cons.1 hdistinct
        cases (hfirst k List.mem_cons_self).symm.trans hjk

theorem equal?_of_perm (hS : Number.Coherent S) (hself : ∀ n, S n → n.eq n = true)
    {v w a b : Value} {xs ys items : List Value} {e t : Ty} (hreads : v.Reads S)
    (hknown : v.isWhollyKnown = true) (hxs : v.items? = some xs) (hys : w.items? = some ys)
    (hperm : ys.Perm xs) (ha : convert v (.set e) = .ok a) (hb : convert w (.set e) = .ok b)
    (hset : a.bare = set t items) (hlength : items.length ≤ 1) : equal? a b = some true := by
  have hw : w.isWhollyKnown = true := Hereditary.whollyKnown.of_items? hys fun y hy =>
    Hereditary.whollyKnown.items? hknown hxs y (hperm.mem_iff.1 hy)
  have hka := Hereditary.whollyKnown.bare a (Hereditary.whollyKnown.convert v hknown ha)
  have hkb := Hereditary.whollyKnown.bare b (Hereditary.whollyKnown.convert w hw hb)
  obtain ⟨u, rs, hu, hrs, rfl⟩ := (convert_set_eq_ok_iff hxs).1 ha
  obtain ⟨u', rs', hu', hrs', rfl⟩ := (convert_set_eq_ok_iff hys).1 hb
  rw [elementTarget_perm hperm] at hu'
  obtain rfl : u = u' := Except.ok.inj (hu.symm.trans hu')
  -- The items of the second value convert to those of the first one, in the other order.
  obtain ⟨others, hothers, hrsperm⟩ := List.perm_comp_forall₂ hperm hrs
  have hunique : Relator.RightUnique fun x r => convert x u = .ok r :=
    fun _ _ _ h h' => Except.ok.inj (h.symm.trans h')
  obtain rfl : others = rs' := hunique.forall₂ hothers hrs'
  have hover : ∀ r ∈ rs, r.Over S := fun r hr => by
    obtain ⟨x, hx, hconvert⟩ := exists_mem_of_forall₂ hrs.flip hr
    exact Reads.over_of_converts (converts_of_convert x hconvert)
      (partwise_reads.items? hreads hxs x hx)
  have hover' : ∀ r ∈ others, r.Over S := fun r hr => hover r (hrsperm.mem_iff.1 hr)
  have hbare : ∀ r ∈ rs.map bare, r.Over S := by
    rw [← bareAll_eq_map]
    exact partwise_over.bareAll rs hover
  rw [bare_setOf hS u hover] at hset hka
  rw [bare_setOf hS u hover'] at hkb
  obtain ⟨rfl, rfl⟩ := set.inj hset
  exact (equal?_set_iff (bare_setOf hS u hover) (bare_setOf hS u hover')).2
    ⟨hka, hkb, rfl, sameAll_of_length_le_one hS hself hbare (fun r => (hrsperm.map bare).mem_iff)
      hlength⟩

theorem exists_distinctFrom_eq_append (kept items : List Value) :
    ∃ more, distinctFrom kept items = kept ++ more := by
  induction items generalizing kept with
  | nil => exact ⟨[], (List.append_nil kept).symm⟩
  | cons v vs ih =>
    rw [distinctFrom]
    split
    · exact ih kept
    · obtain ⟨more, hmore⟩ := ih (kept ++ [v])
      exact ⟨v :: more, by rw [hmore, List.append_assoc, List.singleton_append]⟩

/-- The first item is always kept. -/
theorem exists_distinctFrom_eq_cons (v : Value) (vs : List Value) :
    ∃ more, distinctFrom [] (v :: vs) = v :: more :=
  exists_distinctFrom_eq_append [v] vs

/-- Of a set of several elements, the second one can be made the first. -/
theorem exists_perm_not_equal {v a i j : Value} {xs rest : List Value} {e t : Ty}
    (hxs : v.items? = some xs) (ha : convert v (.set e) = .ok a)
    (hset : a.bare = set t (i :: j :: rest)) :
    ∃ ys b, ys.Perm xs ∧ convert (tuple ys) (.set e) = .ok b ∧ equal? a b ≠ some true := by
  obtain ⟨u, rs, hu, hrs, rfl⟩ := (convert_set_eq_ok_iff hxs).1 ha
  have hitems : distinctFrom [] (bareAll (distinctFrom [] rs)) = i :: j :: rest :=
    (set.inj hset).2
  have hdistinct : (distinctFrom [] (bareAll (distinctFrom [] rs))).Pairwise
      fun v w => same v w = false := pairwise_distinctFrom .nil
  rw [hitems] at hdistinct
  have hij : same i j = false := (List.pairwise_cons.1 hdistinct).1 j List.mem_cons_self
  obtain ⟨r, hr, rfl⟩ : ∃ r ∈ rs, r.bare = j := by
    have hj : j ∈ distinctFrom [] (bareAll (distinctFrom [] rs)) :=
      hitems ▸ List.mem_cons_of_mem i List.mem_cons_self
    have hmem := (mem_distinctFrom hj).resolve_left List.not_mem_nil
    rw [bareAll_eq_map] at hmem
    obtain ⟨r, hr, rfl⟩ := List.mem_map.1 hmem
    exact ⟨r, (mem_distinctFrom hr).resolve_left List.not_mem_nil, rfl⟩
  obtain ⟨front, back, rfl⟩ := List.append_of_mem hr
  have hfirst : Relation.Comp (List.Forall₂ fun x r => convert x u = .ok r) List.Perm xs
      (r :: (front ++ back)) := ⟨_, hrs, List.perm_middle⟩
  rw [List.forall₂_comp_perm_eq_perm_comp_forall₂] at hfirst
  obtain ⟨ys, hperm, hys⟩ := hfirst
  refine ⟨ys, setOf u (r :: (front ++ back)), hperm.symm, ?_, fun h => ?_⟩
  · refine (convert_set_eq_ok_iff rfl).2 ⟨u, _, ?_, hys, rfl⟩
    rw [elementTarget_perm hperm.symm]
    exact hu
  · obtain ⟨more, hmore⟩ := exists_distinctFrom_eq_cons r (front ++ back)
    obtain ⟨others, hothers⟩ := exists_distinctFrom_eq_cons r.bare (bareAll more)
    have hb : (setOf u (r :: (front ++ back))).bare = set u (r.bare :: others) := by
      rw [setOf, hmore, bare, bareAll, setOf, hothers]
    obtain ⟨-, -, -, hsame⟩ := (equal?_set_iff hset hb).1 h
    cases hij.symm.trans (Bool.and_eq_true_iff.1 hsame).1

/-! The function that makes sets. -/

/-- The argument is converted without its marks, and the result is marked if there were any. -/
theorem call_into_eq_ok_iff {ty : Ty} {pureOnly : Bool} {v a : Value} :
    (into ty).call pureOnly [v] = .ok a ↔
      ∃ x, convert v.bare ty = .ok x ∧ a = x.markIf v.hasMark := by
  have hcall : (into ty).call pureOnly [v] =
      (Builtin.converted v.bare ty).map (markIf (v.hasMark || false)) := rfl
  rw [hcall, Bool.or_false, Builtin.converted]
  cases convert v.bare ty with
  | error e => simp [Except.map]
  | ok x =>
    simp only [Except.map, Except.ok.injEq]
    constructor
    · rintro rfl
      exact ⟨x, rfl, rfl⟩
    · rintro ⟨y, rfl, rfl⟩
      rfl

theorem bare_markIf (m : Bool) (v : Value) : (v.markIf m).bare = v.bare := by
  cases m with
  | false => rfl
  | true => exact bare_mark v

theorem equal?_congr_bare {a a' b b' : Value} (ha : a.bare = a'.bare) (hb : b.bare = b'.bare) :
    equal? a b = equal? a' b' := by
  rw [equal?, equal?, ha, hb]

/-- A set that equals another one has the same elements. It equals all the sets made of the same
items, in whatever order, exactly when it has one element at most. -/
theorem equal?_toset_iff (hS : Number.Coherent S) (hself : ∀ n, S n → n.eq n = true)
    {v a : Value} {xs : List Value} {pureOnly : Bool} (hreads : v.Reads S)
    (hknown : v.isWhollyKnown = true) (hxs : v.bare.items? = some xs)
    (ha : (into (.set .dynamic)).call pureOnly [v] = .ok a) :
    (∀ (b : Value) (t u : Ty) (as bs : List Value), a.bare = set t as → b.bare = set u bs →
      equal? a b = some true → (∀ x ∈ as, ∃ y ∈ bs, equal? x y = some true) ∧
        ∀ y ∈ bs, ∃ x ∈ as, equal? y x = some true) ∧
    ((∀ (w b : Value) (ys : List Value), w.bare.items? = some ys → ys.Perm xs →
        (into (.set .dynamic)).call pureOnly [w] = .ok b → equal? a b = some true) ↔
      ∃ t items, a.bare = set t items ∧ items.length ≤ 1) := by
  refine ⟨fun b t u as bs has hbs h => ?_, ?_⟩
  · obtain ⟨hka, hkb, -, hsame⟩ := (equal?_set_iff has hbs).1 h
    exact ⟨exists_equal?_of_sameAll has hbs hka hkb hsame,
      exists_equal?_of_sameAll hbs has hkb hka ((sameAll_comm bs as).trans hsame)⟩
  obtain ⟨x, hx, rfl⟩ := call_into_eq_ok_iff.1 ha
  rw [bare_markIf]
  constructor
  · intro h
    obtain ⟨t, items, hset⟩ : ∃ t items, x.bare = set t items := by
      obtain ⟨t, rs, -, -, rfl⟩ := (convert_set_eq_ok_iff hxs).1 hx
      exact ⟨t, _, rfl⟩
    refine ⟨t, items, hset, ?_⟩
    match items with
    | [] => exact Nat.zero_le 1
    | [_] => exact Nat.le_refl 1
    | i :: j :: rest =>
      obtain ⟨ys, y, hperm, hy, hne⟩ := exists_perm_not_equal hxs hx hset
      have hys : (tuple ys).bare = tuple ys := by
        have hfixed : ∀ x ∈ ys, x.bare = x := fun x hx =>
          bare_of_mem_items? hxs x (hperm.mem_iff.1 hx)
        rw [bare, bareAll_eq_map, List.map_congr_left hfixed, List.map_id']
      refine absurd ?_ hne
      rw [← equal?_congr_bare (bare_markIf v.hasMark x) (bare_markIf (tuple ys).hasMark y)]
      refine h (tuple ys) _ ys (congrArg items? hys) hperm (call_into_eq_ok_iff.2 ⟨y, ?_, rfl⟩)
      rw [hys]
      exact hy
  · rintro ⟨t, items, hset, hlength⟩ w b ys hys hperm hb
    obtain ⟨y, hy, rfl⟩ := call_into_eq_ok_iff.1 hb
    rw [equal?_congr_bare (bare_markIf _ x) (bare_markIf _ y)]
    exact equal?_of_perm hS hself (partwise_reads.bare v hreads)
      (Hereditary.whollyKnown.bare v hknown) hxs hys hperm hx hy hset hlength

theorem toset_texts {x y : String} (hne : x ≠ y) (pureOnly : Bool) :
    (into (.set .dynamic)).call pureOnly [tuple [string x, string y]] =
      .ok (set .string [string x, string y]) := by
  have hunify : Ty.unify [.string, .string] = some .string :=
    Ty.unify_of_unified (.equal List.mem_cons_self nofun (by simp))
  have hdifferent : same (string x) (string y) = false := beq_false_of_ne hne
  refine call_into_eq_ok_iff.2 ⟨_, (convert_set_eq_ok_iff rfl).2
    ⟨.string, [string x, string y], ?_, .cons rfl (.cons rfl .nil), ?_⟩, rfl⟩
  · show elementTarget .mixedElements .dynamic [.string, .string] = .ok .string
    rw [elementTarget, hunify]
    rfl
  · simp [setOf, distinctFrom, hdifferent]

/-- Two texts, which can be put in two orders. -/
theorem equal?_toset_iff_texts :
    (∃ y ∈ [string "a", string "b"], equal? (string "a") y = some true) ∧
    ¬ ∀ (w b : Value) (ys : List Value), w.bare.items? = some ys →
      ys.Perm [string "a", string "b"] → (into (.set .dynamic)).call false [w] = .ok b →
        equal? (set .string [string "a", string "b"]) b = some true := by
  have hreads : (tuple [string "a", string "b"]).Reads Number.Whole := by
    refine .tuple (List.forall_mem_cons.2 ⟨?_, List.forall_mem_singleton.2 ?_⟩)
    · exact .string fun n h => nomatch h
    · exact .string fun n h => nomatch h
  obtain ⟨helements, horders⟩ := equal?_toset_iff Number.coherent_whole
    (fun _ => Number.eq_self_of_whole) hreads rfl rfl (toset_texts (by decide) false)
  constructor
  · exact (helements (sensitive (set .string [string "a", string "b"])) _ _ _ _ rfl rfl rfl).1 _
      List.mem_cons_self
  · intro h
    obtain ⟨t, items, hset, hlength⟩ := horders.1 h
    obtain ⟨-, rfl⟩ := set.inj hset
    exact absurd hlength (by decide)

/-- Sets of the same texts that are made in different orders are not equal. -/
theorem toset_order_matters : ∃ a b : Value,
    (into (.set .dynamic)).call false [tuple [string "a", string "b"]] = .ok a ∧
      (into (.set .dynamic)).call false [tuple [string "b", string "a"]] = .ok b ∧
      equal? a b = some false :=
  ⟨_, _, toset_texts (by decide) false, toset_texts (by decide) false, rfl⟩

end StaticConfig.Value

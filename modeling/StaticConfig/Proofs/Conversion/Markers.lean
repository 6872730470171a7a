import StaticConfig.Proofs.Conversion.Parts
import StaticConfig.Proofs.Unification.Convertible
import StaticConfig.Value.Equal

/-!
Markers of optional attributes in the types of converted values. The types of tuples and objects
are made from their parts and have no markers of their own. Nulls, unknown values and collections
are given the wanted type as it is, with its markers, and `==` tells them from values of the same
contents that were converted to the type without markers.
-/
namespace StaticConfig

namespace Ty

mutual

theorem allRequired_allRequired : ∀ t : Ty, t.allRequired.allRequired = t.allRequired
  | dynamic | bool | number | string => rfl
  | list e => congrArg list (allRequired_allRequired e)
  | set e => congrArg set (allRequired_allRequired e)
  | map e => congrArg map (allRequired_allRequired e)
  | tuple elems => congrArg tuple (allRequiredList_allRequiredList elems)
  | object attrs _ => congrArg plainObject (allRequiredFields_allRequiredFields attrs)

theorem allRequiredList_allRequiredList : ∀ ts : List Ty,
    allRequiredList (allRequiredList ts) = allRequiredList ts
  | [] => rfl
  | t :: ts => by
    rw [allRequiredList, allRequiredList, allRequired_allRequired t,
      allRequiredList_allRequiredList ts]

theorem allRequiredFields_allRequiredFields : ∀ attrs : List (String × Ty),
    allRequiredFields (allRequiredFields attrs) = allRequiredFields attrs
  | [] => rfl
  | (k, t) :: rest => by
    rw [allRequiredFields, allRequiredFields, allRequired_allRequired t,
      allRequiredFields_allRequiredFields rest]

end

theorem Static.allRequired {t : Ty} (h : t.Static) : t.allRequired.Static := by
  obtain ⟨hknown, hordered⟩ := h
  induction hordered with
  | @intro t hnames _ ih =>
    refine .of_parts ?_ ?_ fun u hu => ?_
    · cases t with
      | dynamic => cases hknown
      | _ => nofun
    · rw [attrNames_allRequired]
      exact hnames
    · rw [parts_allRequired] at hu
      obtain ⟨x, hx, rfl⟩ := List.mem_map.1 hu
      exact ih x hx ((hasDynamic_eq_false_iff.1 hknown).2 x hx)

theorem allRequired_part {t u : Ty} (h : t.allRequired = t) (hu : u ∈ t.parts) :
    u.allRequired = u := by
  have hparts : t.parts.map allRequired = t.parts.map id := by
    rw [← parts_allRequired, h, List.map_id]
  exact List.map_inj_left.1 hparts u hu

end Ty

namespace Value

/-- Where the conversion of the value to the type leaves nulls, unknown values and collections, the
type has no markers. -/
inductive Sheds : Value → Ty → Prop
  | plain {v : Value} {t : Ty} : t.allRequired = t → Sheds v t
  | sensitive {v : Value} {t : Ty} : Sheds v t → Sheds (.sensitive v) t
  | tuple {v : Value} {items : List Value} {ts : List Ty} : v.items? = some items →
      (∀ (i : Nat) a t, items[i]? = some a → ts[i]? = some t → Sheds a t) → Sheds v (.tuple ts)
  | object {v : Value} {entries : Fields Value} {attrs : Fields Ty} {optional : Names} :
      v.entries? = some entries →
      (∀ name a t, Fields.get? name entries = some a → Fields.get? name attrs = some t →
        Sheds a t) →
      (∀ name t, Fields.get? name entries = none → Fields.get? name attrs = some t →
        t.allRequired = t) → Sheds v (.object attrs optional)

namespace Sheds

variable {v : Value} {t : Ty}

theorem of_sensitive (h : Sheds (.sensitive v) t) : Sheds v t := by
  cases h with
  | plain h => exact .plain h
  | sensitive h => exact h
  | tuple hitems => cases hitems
  | object hentries => cases hentries

theorem plain_of_isCollection (h : Sheds v t) (ht : t.isCollection = true) :
    t.allRequired = t := by
  induction h with
  | plain h => exact h
  | sensitive _ ih => exact ih ht
  | tuple => cases ht
  | object => cases ht

theorem plain_of_leaf (h : Sheds v t) (hv : v.isMarked = false) (hitems : v.items? = none)
    (hentries : v.entries? = none) : t.allRequired = t := by
  cases h with
  | plain h => exact h
  | sensitive => cases hv
  | tuple h => cases hitems.symm.trans h
  | object h => cases hentries.symm.trans h

theorem position {items : List Value} {ts : List Ty} (h : Sheds v (.tuple ts))
    (hitems : v.items? = some items) {i : Nat} {a : Value} (ha : items[i]? = some a)
    (ht : ts[i]? = some t) : Sheds a t := by
  cases h with
  | plain h => exact .plain (Ty.allRequired_part h (List.mem_of_getElem? ht))
  | sensitive => cases hitems
  | tuple h hparts =>
    obtain rfl := Option.some.inj (hitems.symm.trans h)
    exact hparts i a t ha ht

theorem attr {entries : Fields Value} {attrs : Fields Ty} {optional : Names} {name : String}
    {a : Value} (h : Sheds v (.object attrs optional)) (hentries : v.entries? = some entries)
    (ha : Fields.get? name entries = some a) (ht : Fields.get? name attrs = some t) :
    Sheds a t := by
  cases h with
  | plain h => exact .plain (Ty.allRequired_part h (Ty.mem_parts_of_attr? ht))
  | sensitive => cases hentries
  | object h hpresent _ =>
    obtain rfl := Option.some.inj (hentries.symm.trans h)
    exact hpresent name a t ha ht

theorem missing {entries : Fields Value} {attrs : Fields Ty} {optional : Names} {name : String}
    (h : Sheds v (.object attrs optional)) (hentries : v.entries? = some entries)
    (ha : Fields.get? name entries = none) (ht : Fields.get? name attrs = some t) :
    t.allRequired = t := by
  cases h with
  | plain h => exact Ty.allRequired_part h (Ty.mem_parts_of_attr? ht)
  | sensitive => cases hentries
  | object h _ habsent =>
    obtain rfl := Option.some.inj (hentries.symm.trans h)
    exact habsent name t ha ht

end Sheds

/-- Two lists are mapped to the same one when this is so at every place. -/
theorem map_eq_map_iff {α β γ : Type} {f : α → γ} {g : β → γ} {as : List α} {bs : List β}
    (hlength : as.length = bs.length) : as.map f = bs.map g ↔
      ∀ (i : Nat) a b, as[i]? = some a → bs[i]? = some b → f a = g b := by
  constructor
  · intro h i a b ha hb
    have hi := congrArg (·[i]?) h
    simpa only [List.getElem?_map, ha, hb, Option.map_some, Option.some.injEq] using hi
  · intro h
    refine List.ext_getElem (by simpa only [List.length_map] using hlength) fun i ha hb => ?_
    rw [List.length_map] at ha hb
    rw [List.getElem_map, List.getElem_map]
    exact h i _ _ (List.getElem?_eq_getElem ha) (List.getElem?_eq_getElem hb)

theorem ty_tuple_eq_iff {rs : List Value} {ts : List Ty} (hlength : rs.length = ts.length) :
    (tuple rs).ty = (Ty.tuple ts).allRequired ↔
      ∀ (i : Nat) r t, rs[i]? = some r → ts[i]? = some t → r.ty = t.allRequired := by
  rw [ty, Ty.allRequired, Ty.tuple.injEq, types_eq_map, Ty.allRequiredList_eq_map,
    map_eq_map_iff hlength]

theorem ty_object_eq_iff {fields : Fields Value} {attrs : Fields Ty} {optional : Names}
    (hkeys : Fields.keys fields = Fields.keys attrs) :
    (object fields).ty = (Ty.object attrs optional).allRequired ↔
      ∀ (i : Nat) p q, attrs[i]? = some p → fields[i]? = some q → q.2.ty = p.2.allRequired := by
  have hplain {as bs : Fields Ty} : Ty.plainObject as = .plainObject bs ↔ as = bs := by
    simp [Ty.plainObject]
  rw [ty, Ty.allRequired, hplain, fieldTypes_eq, Ty.allRequiredFields_eq_mapValues,
    Fields.mapValues, Fields.mapValues, map_eq_map_iff (Fields.length_eq_of_keys hkeys)]
  constructor
  · intro h i p q hp hq
    exact congrArg Prod.snd (h i q p hq hp)
  · intro h i q p hq hp
    have hname : q.1 = p.1 := Fields.name_eq_of_keys hkeys hq hp
    exact Prod.ext hname (h i p q hp hq)

/-- By induction on the conversion: at nulls, unknown values and collections the type of the result
is the wanted type, and at tuples and objects it is made from the types of the parts. -/
theorem Converts.ty_eq_iff {v r : Value} {want : Ty} (h : Converts v want r) (hw : want.Static) :
    r.ty = want.allRequired ↔ Sheds v want := by
  induction h with
  | sensitive _ ih =>
    rw [ty_mark, ih hw]
    exact ⟨.sensitive, Sheds.of_sensitive⟩
  | dynamic _ => exact absurd rfl hw.ne_dynamic
  | null _ => exact ⟨fun h => .plain h.symm, fun h => (h.plain_of_leaf rfl rfl rfl).symm⟩
  | unknown _ _ => exact ⟨fun h => .plain h.symm, fun h => (h.plain_of_leaf rfl rfl rfl).symm⟩
  | primitive _ h =>
    rcases convertPrimitive_cases h with ⟨rfl, _⟩ | ⟨rfl, b, rfl⟩ | ⟨rfl, n, rfl⟩ | ⟨rfl, s, rfl⟩
    · exact absurd rfl hw.ne_dynamic
    · exact ⟨fun _ => .plain rfl, fun _ => rfl⟩
    · exact ⟨fun _ => .plain rfl, fun _ => rfl⟩
    · exact ⟨fun _ => .plain rfl, fun _ => rfl⟩
  | list _ ht _ _ _ =>
    obtain rfl := elementTarget_of_static (hw.part List.mem_cons_self).known ht
    exact ⟨fun h => .plain h.symm, fun h => (h.plain_of_isCollection rfl).symm⟩
  | set _ ht _ _ _ =>
    obtain rfl := elementTarget_of_static (hw.part List.mem_cons_self).known ht
    exact ⟨fun h => .plain h.symm, fun h => (h.plain_of_isCollection rfl).symm⟩
  | map _ ht _ _ _ =>
    obtain rfl := elementTarget_of_static (hw.part List.mem_cons_self).known ht
    exact ⟨fun h => .plain h.symm, fun h => (h.plain_of_isCollection rfl).symm⟩
  | @tuple v items rs ts hitems hts hlength _ ih =>
    rw [ty_tuple_eq_iff (hlength.trans hts.symm)]
    constructor
    · intro h
      refine .tuple hitems fun i a t ha ht => ?_
      obtain ⟨hlt, -⟩ := List.getElem?_eq_some_iff.1 ha
      have hr : rs[i]? = some rs[i] := List.getElem?_eq_getElem (hlength ▸ hlt)
      exact (ih i a t _ ha ht hr (hw.part (List.mem_of_getElem? ht))).1 (h i _ t hr ht)
    · intro h i r t hr ht
      obtain ⟨hlt, -⟩ := List.getElem?_eq_some_iff.1 hr
      have ha : items[i]? = some items[i] := List.getElem?_eq_getElem (hlength ▸ hlt)
      exact (ih i _ t r ha ht hr (hw.part (List.mem_of_getElem? ht))).2 (h.position hitems ha ht)
  | @object v entries fields attrs optional hentries hkeys _ hnull ih =>
    have hsorted : Fields.Sorted attrs := (Fields.sorted_iff_keys attrs).2 hw.names
    have place {name : String} {t : Ty} (ht : Fields.get? name attrs = some t) :
        ∃ (i : Nat) (r : Value), attrs[i]? = some (name, t) ∧ fields[i]? = some (name, r) := by
      obtain ⟨r, hr⟩ := Fields.exists_get?_of_mem_keys (hkeys ▸ Fields.mem_keys_of_get? ht)
      obtain ⟨i, hq, hp⟩ := Fields.exists_getElem?_of_get? hkeys hr ht
      exact ⟨i, r, hp, hq⟩
    rw [ty_object_eq_iff hkeys]
    constructor
    · intro h
      refine .object hentries (fun name a t ha ht => ?_) fun name t ha ht => ?_
      · obtain ⟨i, r, hp, hq⟩ := place ht
        exact (ih i _ _ a t hp hq ha ht (hw.part (Ty.mem_parts_of_attr? ht))).1 (h i _ _ hp hq)
      · obtain ⟨i, r, hp, hq⟩ := place ht
        obtain rfl := hnull i _ _ hp hq ha
        exact (h i _ _ hp hq).symm
    · intro h i p q hp hq
      have ht := Fields.get?_of_mem hsorted (List.mem_of_getElem? hp)
      cases ha : Fields.get? p.1 entries with
      | some a =>
        exact (ih i p q a p.2 hp hq ha ht (hw.part (Ty.mem_parts_of_attr? ht))).2
          (h.attr hentries ha ht)
      | none =>
        rw [hnull i p q hp hq ha]
        exact (h.missing hentries ha ht).symm

/-! Conversions to the type with and without its markers. -/

theorem eq_of_getElem? {α : Type} {as bs : List α} (hlength : as.length = bs.length)
    (h : ∀ (i : Nat) a b, as[i]? = some a → bs[i]? = some b → a = b) : as = bs := by
  simpa only [List.map_id] using (map_eq_map_iff (f := id) (g := id) hlength).2 h

theorem of_convert_tuple {v r : Value} {items : List Value} {ts : List Ty}
    (hitems : v.items? = some items) (h : convert v (.tuple ts) = .ok r) :
    ∃ rs, r = tuple rs ∧ rs.length = ts.length ∧ items.length = ts.length ∧
      ∀ (i : Nat) a t r, items[i]? = some a → ts[i]? = some t → rs[i]? = some r →
        convert a t = .ok r := by
  obtain ⟨hordered, hlength⟩ := ordered?_of_convert_tuple hitems h
  rw [convert_tuple hordered hlength, Except.map_eq_ok] at h
  obtain ⟨rs, hrs, rfl⟩ := h
  obtain ⟨hrslength, hparts⟩ := (convertEach_iff_places hlength).1 hrs
  exact ⟨rs, rfl, hrslength.trans hlength, hlength, hparts⟩

theorem of_convert_object {v r : Value} {entries : Fields Value} {attrs : Fields Ty}
    {optional : Names} (hentries : v.entries? = some entries)
    (h : convert v (.object attrs optional) = .ok r) :
    ∃ fields, r = object fields ∧
      collectAttrs (convertAttrs entries attrs) optional attrs = .ok fields := by
  rw [convert_object hentries, Except.map_eq_ok] at h
  obtain ⟨fields, hfields, rfl⟩ := h
  exact ⟨fields, rfl, hfields⟩

theorem Sheds.eq_of_convert {v r p : Value} {want : Ty} (h : Sheds v want) (hw : want.Static)
    (hr : convert v want = .ok r) (hp : convert v want.allRequired = .ok p) : r = p := by
  induction h generalizing r p with
  | plain h =>
    rw [h] at hp
    exact Except.ok.inj (hr.symm.trans hp)
  | sensitive _ ih =>
    simp only [convert] at hr hp
    obtain ⟨x, hx, rfl⟩ := Except.map_eq_ok.1 hr
    obtain ⟨y, hy, rfl⟩ := Except.map_eq_ok.1 hp
    rw [ih hw hx hy]
  | @tuple v items ts hitems _ ih =>
    rw [Ty.allRequired, Ty.allRequiredList_eq_map] at hp
    obtain ⟨rs, rfl, hrs, hlength, hr⟩ := of_convert_tuple hitems hr
    obtain ⟨ps, rfl, hps, -, hp⟩ := of_convert_tuple hitems hp
    rw [List.length_map] at hps
    refine congrArg Value.tuple (eq_of_getElem? (hrs.trans hps.symm) fun i x y hx hy => ?_)
    obtain ⟨hlt, -⟩ := List.getElem?_eq_some_iff.1 hx
    have ha : items[i]? = some items[i] := List.getElem?_eq_getElem (by omega)
    have ht : ts[i]? = some ts[i] := List.getElem?_eq_getElem (by omega)
    have ht' : (ts.map Ty.allRequired)[i]? = some ts[i].allRequired := by
      rw [List.getElem?_map, ht, Option.map_some]
    exact ih i _ _ ha ht (hw.part (List.mem_of_getElem? ht)) (hr i _ _ x ha ht hx)
      (hp i _ _ y ha ht' hy)
  | @object v entries attrs optional hentries _ hplain ih =>
    rw [Ty.allRequired, Ty.allRequiredFields_eq_mapValues] at hp
    obtain ⟨fields, rfl, hfields⟩ := of_convert_object hentries hr
    obtain ⟨others, rfl, hothers⟩ := of_convert_object hentries hp
    obtain ⟨hkeys, hr, hrnull⟩ := of_collectAttrs_convertAttrs hfields
    obtain ⟨hkeys', hp, hpnull⟩ := of_collectAttrs_convertAttrs hothers
    rw [Fields.keys_mapValues] at hkeys'
    have hsorted : Fields.Sorted attrs := (Fields.sorted_iff_keys attrs).2 hw.names
    have hsame : Fields.keys fields = Fields.keys others := hkeys.trans hkeys'.symm
    have hlength := Fields.length_eq_of_keys hkeys
    refine congrArg Value.object
      (eq_of_getElem? (Fields.length_eq_of_keys hsame) fun i x y hx hy => ?_)
    refine Prod.ext (Fields.name_eq_of_keys hsame hx hy) ?_
    obtain ⟨hlt, -⟩ := List.getElem?_eq_some_iff.1 hx
    obtain ⟨q, hq⟩ : ∃ q, attrs[i]? = some q := ⟨_, List.getElem?_eq_getElem (hlength ▸ hlt)⟩
    have hq' : (attrs.mapValues Ty.allRequired)[i]? = some (q.1, q.2.allRequired) := by
      rw [Fields.mapValues, List.getElem?_map, hq, Option.map_some]
    have ht := Fields.get?_of_mem hsorted (List.mem_of_getElem? hq)
    have ht' : Fields.get? q.1 (attrs.mapValues Ty.allRequired) = some q.2.allRequired := by
      rw [Fields.get?_mapValues, ht, Option.map_some]
    cases ha : Fields.get? q.1 entries with
    | some a =>
      exact ih q.1 a q.2 ha ht (hw.part (Ty.mem_parts_of_attr? ht)) (hr i q x a _ hq hx ha ht)
        (hp i _ y a _ hq' hy ha ht')
    | none =>
      rw [hrnull i q x hq hx ha, hpnull i _ y hq' hy ha]
      exact congrArg null (hplain q.1 q.2 ha ht).symm

/-! Comparison of converted values. -/

theorem isNull_of_convertPrimitive {v r : Value} {want : Ty} (hwant : want ≠ .dynamic)
    (h : convertPrimitive v want = .ok r) : v.isNull = false ∧ r.isNull = false := by
  constructor
  · cases v with
    | null => cases want <;> first | exact absurd rfl hwant | cases h
    | sensitive => cases want <;> first | exact absurd rfl hwant | cases h
    | _ => rfl
  · rcases convertPrimitive_cases h with ⟨rfl, _⟩ | ⟨rfl, b, rfl⟩ | ⟨rfl, n, rfl⟩ | ⟨rfl, s, rfl⟩
    · exact absurd rfl hwant
    · rfl
    · rfl
    · rfl

theorem Converts.isNull_eq {v r : Value} {want : Ty} (h : Converts v want r) :
    r.isNull = v.isNull := by
  induction h with
  | sensitive _ ih => exact (isNull_mark _).trans ih
  | dynamic _ => rfl
  | null _ => rfl
  | unknown _ _ => rfl
  | primitive hwant h =>
    obtain ⟨hv, hr⟩ := isNull_of_convertPrimitive hwant h
    exact hr.trans hv.symm
  | list h _ _ _ _ => exact (isNull_of_items? h).symm
  | set h _ _ _ _ => exact (isNull_of_items? h).symm
  | tuple h _ _ _ _ => exact (isNull_of_items? h).symm
  | map h _ _ _ _ => exact (isNull_of_entries? h).symm
  | object h _ _ _ _ => exact (isNull_of_entries? h).symm

theorem equal?_of_ty_ne {v w : Value} (hv : v.isWhollyKnown = true) (hw : w.isWhollyKnown = true)
    (hvnull : v.isNull = false) (hwnull : w.isNull = false) (h : v.ty ≠ w.ty) :
    equal? v w = some false := by
  have hv := Hereditary.whollyKnown.bare v hv
  have hw := Hereditary.whollyKnown.bare w hw
  simp only [equal?, isNull_bare, ty_bare, hvnull, hwnull, hv, hw, h, Bool.or_self, Bool.not_true,
    if_false, Bool.false_eq_true]

/-- A converted value is of the wanted type up to markers. It is of the type without markers, and
the same value as when it is converted to that type, exactly when the conversion sheds them; when
it does not, `==` tells the two values from each other. -/
theorem ty_of_convert_iff {v r : Value} {want : Ty} (hw : want.Static)
    (h : v.convert want = .ok r) :
    r.ty.Like want ∧ (r.ty = want.allRequired ↔ v.Sheds want) ∧
      ∀ p, v.convert want.allRequired = .ok p →
        (v.Sheds want → r = p) ∧
        (v.isWhollyKnown = true → v.isNull = false → ¬ v.Sheds want → equal? r p = some false) := by
  have hty := (converts_of_convert v h).ty_eq_iff hw
  refine ⟨(establishes_fits.of_convert v hw h).1, hty, fun p hp => ⟨fun hsheds =>
    hsheds.eq_of_convert hw h hp, fun hknown hnull hsheds => ?_⟩⟩
  have hplain : want.allRequired.allRequired = want.allRequired := Ty.allRequired_allRequired want
  have hpty : p.ty = want.allRequired := by
    rw [← hplain]
    exact ((converts_of_convert v hp).ty_eq_iff hw.allRequired).2 (.plain hplain)
  refine equal?_of_ty_ne (Hereditary.whollyKnown.convert v hknown h)
    (Hereditary.whollyKnown.convert v hknown hp) ?_ ?_ fun heq => hsheds (hty.1 (heq.trans hpty))
  · exact (converts_of_convert v h).isNull_eq.trans hnull
  · exact (converts_of_convert v hp).isNull_eq.trans hnull

/-- A list of objects keeps the marker of its elements, and a tuple of them does not. -/
theorem ty_of_convert_iff_items :
    let item : Ty := .object [("x", .string)] ["x"]
    let given := tuple [object [("x", sensitive (string "1"))]]
    (∃ r p, given.convert (.list item) = .ok r ∧ given.convert (.list item.allRequired) = .ok p ∧
      ¬ given.Sheds (.list item) ∧ equal? r p = some false) ∧
    ∃ r, given.convert (.tuple [item]) = .ok r ∧ r.ty = .tuple [item.allRequired] ∧
      given.Sheds (.tuple [item]) := by
  intro item given
  have hstring : Ty.string.Static := .of_parts nofun .nil nofun
  have hitem : item.Static :=
    .of_parts nofun (List.pairwise_singleton _ _) (List.forall_mem_singleton.2 hstring)
  have hlist : (Ty.list item).Static := .of_parts nofun .nil (List.forall_mem_singleton.2 hitem)
  have htuple : (Ty.tuple [item]).Static :=
    .of_parts nofun .nil (List.forall_mem_singleton.2 hitem)
  constructor
  · have h : given.convert (.list item) =
        .ok (list item [object [("x", sensitive (string "1"))]]) := rfl
    obtain ⟨-, hsheds, hplain⟩ := ty_of_convert_iff hlist h
    have hty : Ty.list item ≠ (Ty.list item).allRequired := by decide
    have hmarked : ¬ given.Sheds (.list item) := fun hs => hty (hsheds.2 hs)
    exact ⟨_, _, h, rfl, hmarked, (hplain _ rfl).2 rfl rfl hmarked⟩
  · have h : given.convert (.tuple [item]) =
        .ok (tuple [object [("x", sensitive (string "1"))]]) := rfl
    obtain ⟨-, hsheds, -⟩ := ty_of_convert_iff htuple h
    exact ⟨_, h, rfl, hsheds.1 rfl⟩

/-- The markers stay, so equal contents are not equal. -/
theorem ty_of_convert_keeps_markers :
    ∃ v r p : Value, ∃ want : Ty, want.hasDynamic = false ∧ v.convert want = .ok r ∧
      v.convert want.allRequired = .ok p ∧ r.ty ≠ want.allRequired ∧ equal? r p = some false := by
  exact ⟨tuple [object [("x", string "1")]], _, _, .list (.object [("x", .string)] ["x"]), rfl,
    rfl, rfl, by decide, rfl⟩

end Value
end StaticConfig

import StaticConfig.Proofs.Conversion.Idempotent
import StaticConfig.Proofs.Conversion.Markers
import StaticConfig.Proofs.Filling.Applied

/-!
What a value becomes when defaults are filled in and it is converted to the type they are for, part
by part. The two steps go through tuples and objects that stand for lists, sets and maps; here they
are one relation between the value and the result. A default stands in for an attribute only where
the value has none or a null. What has been filled in and converted once stays as it is.
-/
namespace StaticConfig.Defaults

open Value

/-- Filled in and converted to the type, the first value becomes the second one. -/
inductive Completes : Option Defaults → Ty → Value → Value → Prop
  | sensitive {d : Option Defaults} {t : Ty} {v r : Value} : v.isMarked = false →
      Completes d t v r → Completes d t (.sensitive v) r.mark
  | null {d : Option Defaults} {t u : Ty} : t ≠ .dynamic → Completes d t (.null u) (.null t)
  | unknown {d : Option Defaults} {t u : Ty} : t ≠ .dynamic → u.mayConvert t = true →
      Completes d t (.unknown u) (.unknown t)
  | primitive {d : Option Defaults} {t : Ty} {v r : Value} : t ≠ .dynamic →
      convertPrimitive v t = .ok r → Completes d t v r
  | list {d : Option Defaults} {e : Ty} {v : Value} {items rs : List Value} :
      v.items? = some items → rs.length = items.length →
      (∀ (i : Nat) a r, items[i]? = some a → rs[i]? = some r →
        Completes (inside elementKey d) e a r) → Completes d (.list e) v (.list e rs)
  | set {d : Option Defaults} {e : Ty} {v : Value} {items rs : List Value} :
      v.items? = some items → rs.length = items.length →
      (∀ (i : Nat) a r, items[i]? = some a → rs[i]? = some r →
        Completes (inside elementKey d) e a r) → Completes d (.set e) v (setOf e rs)
  | tuple {d : Option Defaults} {ts : List Ty} {v : Value} {items rs : List Value} :
      v.ordered? = some items → items.length = ts.length → rs.length = items.length →
      (∀ (i : Nat) a t r, items[i]? = some a → ts[i]? = some t → rs[i]? = some r →
        Completes (inside (toString i) d) t a r) → Completes d (.tuple ts) v (.tuple rs)
  | map {d : Option Defaults} {e : Ty} {v : Value} {entries rs : Fields Value} :
      v.entries? = some entries → Fields.keys rs = Fields.keys entries →
      (∀ (i : Nat) p q, entries[i]? = some p → rs[i]? = some q →
        Completes (inside elementKey d) e p.2 q.2) → Completes d (.map e) v (.map e rs)
  | object {d : Option Defaults} {attrs : Fields Ty} {optional : Names} {v : Value}
      {entries fields : Fields Value} :
      v.entries? = some entries → Fields.keys fields = Fields.keys attrs →
      (∀ name t r a, Fields.get? name attrs = some t → Fields.get? name fields = some r →
        attrOr d name entries = some a → Completes (inside name d) t a r) →
      (∀ name t r, Fields.get? name attrs = some t → Fields.get? name fields = some r →
        attrOr d name entries = none → optional.contains name = true ∧ r = .null t) →
      Completes d (.object attrs optional) v (.object fields)

variable {d : Option Defaults} {t e : Ty} {v r : Value} {items : List Value}
  {entries : Fields Value}

/-- What an attribute has is its own value or its default. -/
theorem markedOnce_of_attrOr (hd : Suits d t) (hentries : ∀ p ∈ entries, p.2.MarkedOnce)
    {name : String} {a : Value} (ha : attrOr d name entries = some a) : a.MarkedOnce := by
  unfold attrOr at ha
  split at ha
  · next own hown =>
    have hmarked := hentries _ (Fields.mem_of_get? hown)
    split at ha
    · rcases Option.or_eq_some_iff.1 ha with ha | ⟨-, ha⟩
      · exact hd.markedOnce_ofAttr ha
      · cases ha
        exact hmarked
    · cases ha
      exact hmarked
  · exact hd.markedOnce_ofAttr ha

/-- The relation holds of what is filled in and converted inside of the type. -/
def CompletesInside (d : Option Defaults) (t : Ty) : Prop :=
  ∀ name u a r, t.Inside name u → a.MarkedOnce →
    convert (fill (inside name d) a) u = .ok r → Completes (inside name d) u a r

theorem completes_of_sequence (ht : t.Static) (hd : Suits d t) (hin : CompletesInside d t)
    (hv : v.MarkedOnce) (hitems : v.items? = some items) (h : convert (fill d v) t = .ok r) :
    Completes d t v r := by
  have hmarked {i : Nat} {a : Value} (ha : items[i]? = some a) : a.MarkedOnce :=
    Hereditary.markedOnce.items? hv hitems a (List.mem_of_getElem? ha)
  cases t with
  | list e =>
    have he := (ht.part (u := e) List.mem_cons_self).known
    rw [convert_list (hd.items?_fill (.inl rfl) hitems) he, Except.map_eq_ok] at h
    obtain ⟨rs, hrs, rfl⟩ := h
    obtain ⟨hlength, hparts⟩ := convertItems_iff_places.1 hrs
    refine .list hitems (by rwa [List.length_map] at hlength) fun i a r ha hr => ?_
    refine hin _ e a r .list (hmarked ha) (hparts i _ r ?_ hr)
    rw [List.getElem?_map, ha, Option.map_some]
  | set e =>
    have he := (ht.part (u := e) List.mem_cons_self).known
    rw [convert_set (hd.items?_fill (.inr rfl) hitems) he, Except.map_eq_ok] at h
    obtain ⟨rs, hrs, rfl⟩ := h
    obtain ⟨hlength, hparts⟩ := convertItems_iff_places.1 hrs
    refine .set hitems (by rwa [List.length_map] at hlength) fun i a r ha hr => ?_
    refine hin _ e a r .set (hmarked ha) (hparts i _ r ?_ hr)
    rw [List.getElem?_map, ha, Option.map_some]
  | tuple ts =>
    have hordered : v.ordered? = some items := by
      cases v with
      | list e vs => exact hitems
      | tuple vs => exact hitems
      | set e vs =>
        rw [hd.fill_set] at h
        cases (ordered?_of_convert_tuple rfl h).1
      | _ => cases hitems
    have hfilled := hd.ordered?_fill hordered
    have hlength := (ordered?_of_convert_tuple (items?_of_ordered? hfilled) h).2
    rw [convert_tuple hfilled hlength, Except.map_eq_ok] at h
    obtain ⟨rs, hrs, rfl⟩ := h
    obtain ⟨hrslength, hparts⟩ := (convertEach_iff_places hlength).1 hrs
    rw [List.length_mapIdx] at hlength hrslength
    refine .tuple hordered hlength hrslength fun i a u r ha hu hr => ?_
    refine hin _ u a r (.tuple hu) (hmarked ha) (hparts i _ u r ?_ hu hr)
    rw [List.getElem?_mapIdx, ha, Option.map_some]
  | _ =>
    have hself := hd.fill_eq_self (v := v) (by cases v <;> first | rfl | cases hitems)
      (fun h => by cases h)
      fun _ => by cases v <;> first | rfl | cases hitems
    rw [hself] at h
    cases isSequence_of_convert hitems ht.ne_dynamic h

theorem completes_of_mapping (ht : t.Static) (hd : Suits d t) (hin : CompletesInside d t)
    (hv : v.MarkedOnce) (hentries : v.entries? = some entries)
    (h : convert (fill d v) t = .ok r) : Completes d t v r := by
  have hmarked := Hereditary.markedOnce.entries? hv hentries
  cases t with
  | map e =>
    have he := (ht.part (u := e) List.mem_cons_self).known
    rw [convert_map (hd.entries?_fill_map hentries) he, Except.map_eq_ok] at h
    obtain ⟨rs, hrs, rfl⟩ := h
    obtain ⟨hkeys, hparts⟩ := convertEntries_iff_places.1 hrs
    have hnames : Fields.keys rs = Fields.keys entries := by
      rw [hkeys]
      simp [Fields.keys]
    refine .map hentries hnames fun i p q hp hq => ?_
    have hp' : (entries.map fun p => (p.1, fill (inside elementKey d) p.2))[i]? =
        some (p.1, fill (inside elementKey d) p.2) := by
      rw [List.getElem?_map, hp, Option.map_some]
    exact hin _ e p.2 q.2 .map (hmarked p (List.mem_of_getElem? hp)) (hparts i _ q hp' hq)
  | object attrs optional =>
    have hattrs : Fields.Sorted attrs := (Fields.sorted_iff_keys attrs).2 ht.names
    obtain ⟨filled, hfilled, hget⟩ := hd.entries?_fill_object hentries
    obtain ⟨fields, rfl, hkeys, hparts⟩ := (convert_object_eq_ok_iff hfilled hattrs).1 h
    refine .object hentries hkeys (fun name t r a ht hr ha => ?_) fun name t r ht hr ha => ?_
    · refine hin name t a r (.object ht) (markedOnce_of_attrOr hd hmarked ha) ?_
      refine (hparts name t r ht hr).1 _ ?_
      rw [hget, ha, Option.map_some]
    · refine (hparts name t r ht hr).2 ?_
      rw [hget, ha, Option.map_none]
  | _ =>
    have hself := hd.fill_eq_self (v := v) (by cases v <;> first | rfl | cases hentries)
      (fun _ => by cases v <;> first | rfl | cases hentries) fun h => by cases h
    rw [hself] at h
    cases isMapping_of_convert hentries ht.ne_dynamic h

theorem completes_of_leaf (ht : t.Static) (hd : Suits d t) (hm : v.isMarked = false)
    (hitems : v.items? = none) (hentries : v.entries? = none)
    (h : convert (fill d v) t = .ok r) : Completes d t v r := by
  rw [hd.fill_eq_self hm (fun _ => hitems) fun _ => hentries] at h
  cases converts_of_convert v h with
  | sensitive _ => cases hm
  | dynamic _ => exact absurd rfl ht.ne_dynamic
  | null ht => exact .null ht
  | unknown ht hmay => exact .unknown ht hmay
  | primitive ht h => exact .primitive ht h
  | list hsome => cases hitems.symm.trans hsome
  | set hsome => cases hitems.symm.trans hsome
  | tuple hsome => cases hitems.symm.trans hsome
  | map hsome => cases hentries.symm.trans hsome
  | object hsome => cases hentries.symm.trans hsome

/-- By induction on the type: what is inside of a value is filled in and converted as inside of the
type. A default is no part of the value, so it would not do to go by the value. -/
theorem completes_of_convert (ht : t.Static) (hd : Suits d t) (hv : v.MarkedOnce)
    (h : convert (fill d v) t = .ok r) : Completes d t v r := by
  obtain ⟨hknown, hordered⟩ := ht
  induction hordered generalizing d v r with
  | @intro t hnames hparts ih =>
    have ht : t.Static := ⟨hknown, .intro hnames hparts⟩
    have hin : CompletesInside d t := fun name u a r hu ha h =>
      ih u hu.mem_parts (hd.inside hu) ha h (ht.part hu.mem_parts).known
    have hbare {v r : Value} (hv : v.MarkedOnce) (hm : v.isMarked = false)
        (h : convert (fill d v) t = .ok r) : Completes d t v r := by
      cases v with
      | list e items => exact completes_of_sequence ht hd hin hv rfl h
      | set e items => exact completes_of_sequence ht hd hin hv rfl h
      | tuple items => exact completes_of_sequence ht hd hin hv rfl h
      | map e entries => exact completes_of_mapping ht hd hin hv rfl h
      | object attrs => exact completes_of_mapping ht hd hin hv rfl h
      | _ => exact completes_of_leaf ht hd hm rfl rfl h
    cases v with
    | sensitive v =>
      obtain ⟨hm, hv⟩ := hv.inner
      rw [fill_sensitive hm, mark_of_isMarked_eq_false (isMarked_fill hm), convert,
        Except.map_eq_ok] at h
      obtain ⟨x, hx, rfl⟩ := h
      exact .sensitive hm (hbare hv hm hx)
    | _ => exact hbare hv rfl h

/-- Only truth values, numbers and texts are primitive values. -/
theorem convert_of_convertPrimitive (hne : t ≠ .dynamic) (h : convertPrimitive v t = .ok r) :
    convert v t = .ok r ∧ v.isMarked = false ∧ v.items? = none ∧ v.entries? = none := by
  cases v with
  | bool b => exact ⟨h, rfl, rfl, rfl⟩
  | number n => exact ⟨h, rfl, rfl, rfl⟩
  | string s => exact ⟨h, rfl, rfl, rfl⟩
  | _ => cases t <;> contradiction

/-- The relation is what filling in and converting does. -/
theorem Completes.convert (h : Completes d t v r) (ht : t.Static) (hd : Suits d t) :
    Value.convert (fill d v) t = .ok r := by
  induction h with
  | sensitive hm _ ih =>
    rw [fill_sensitive hm, mark_of_isMarked_eq_false (isMarked_fill hm), Value.convert, ih ht hd]
    rfl
  | null hne =>
    rw [hd.fill_eq_self rfl (fun _ => rfl) fun _ => rfl, Value.convert,
      if_neg (by simpa using hne)]
  | unknown hne hmay =>
    rw [hd.fill_eq_self rfl (fun _ => rfl) fun _ => rfl, Value.convert,
      if_neg (by simpa using hne), if_pos hmay]
  | primitive hne h =>
    obtain ⟨hconvert, hm, hitems, hentries⟩ := convert_of_convertPrimitive hne h
    rw [hd.fill_eq_self hm (fun _ => hitems) fun _ => hentries, hconvert]
  | @list d e v items rs hitems hlength _ ih =>
    have he := ht.part (u := e) List.mem_cons_self
    rw [convert_list (hd.items?_fill (.inl rfl) hitems) he.known, Except.map_eq_ok]
    refine ⟨rs, convertItems_iff_places.2 ⟨by rwa [List.length_map], fun i a r ha hr => ?_⟩, rfl⟩
    rw [List.getElem?_map] at ha
    obtain ⟨x, hx, rfl⟩ := Option.map_eq_some_iff.1 ha
    exact ih i x r hx hr he (hd.inside .list)
  | @set d e v items rs hitems hlength _ ih =>
    have he := ht.part (u := e) List.mem_cons_self
    rw [convert_set (hd.items?_fill (.inr rfl) hitems) he.known, Except.map_eq_ok]
    refine ⟨rs, convertItems_iff_places.2 ⟨by rwa [List.length_map], fun i a r ha hr => ?_⟩, rfl⟩
    rw [List.getElem?_map] at ha
    obtain ⟨x, hx, rfl⟩ := Option.map_eq_some_iff.1 ha
    exact ih i x r hx hr he (hd.inside .set)
  | @tuple d ts v items rs hitems hts hlength _ ih =>
    have hmapped : (items.mapIdx fun i => fill (inside (toString i) d)).length = ts.length := by
      rwa [List.length_mapIdx]
    rw [convert_tuple (hd.ordered?_fill hitems) hmapped, Except.map_eq_ok]
    refine ⟨rs, (convertEach_iff_places hmapped).2
      ⟨by rwa [List.length_mapIdx], fun i a u r ha hu hr => ?_⟩, rfl⟩
    rw [List.getElem?_mapIdx] at ha
    obtain ⟨x, hx, rfl⟩ := Option.map_eq_some_iff.1 ha
    have hin : (Ty.tuple ts).Inside (toString i) u := .tuple hu
    exact ih i x u r hx hu hr (ht.part hin.mem_parts) (hd.inside hin)
  | @map d e v entries rs hentries hkeys _ ih =>
    have he := ht.part (u := e) List.mem_cons_self
    rw [convert_map (hd.entries?_fill_map hentries) he.known, Except.map_eq_ok]
    refine ⟨rs, convertEntries_iff_places.2 ⟨?_, fun i p q hp hq => ?_⟩, rfl⟩
    · rw [hkeys]
      simp [Fields.keys]
    · rw [List.getElem?_map] at hp
      obtain ⟨x, hx, rfl⟩ := Option.map_eq_some_iff.1 hp
      exact ih i x q hx hq he (hd.inside .map)
  | @object d attrs optional v entries fields hentries hkeys _ hnull ih =>
    have hattrs : Fields.Sorted attrs := (Fields.sorted_iff_keys attrs).2 ht.names
    obtain ⟨filled, hfilled, hget⟩ := hd.entries?_fill_object hentries
    refine (convert_object_eq_ok_iff hfilled hattrs).2 ⟨fields, rfl, hkeys,
      fun name u x hu hx => ⟨fun a ha => ?_, fun ha => ?_⟩⟩
    · rw [hget] at ha
      obtain ⟨b, hb, rfl⟩ := Option.map_eq_some_iff.1 ha
      have hin : (Ty.object attrs optional).Inside name u := .object hu
      exact ih name u x b hu hx hb (ht.part hin.mem_parts) (hd.inside hin)
    · rw [hget, Option.map_eq_none_iff] at ha
      exact hnull name u x hu hx ha

theorem Completes.isNull_eq (h : Completes d t v r) : r.isNull = v.isNull := by
  induction h with
  | sensitive _ _ ih => exact (isNull_mark _).trans ih
  | null _ => rfl
  | unknown _ _ => rfl
  | primitive hne h =>
    obtain ⟨hv, hr⟩ := isNull_of_convertPrimitive hne h
    exact hr.trans hv.symm
  | list h _ _ _ => exact (isNull_of_items? h).symm
  | set h _ _ _ => exact (isNull_of_items? h).symm
  | tuple h _ _ _ _ => exact (isNull_of_items? (items?_of_ordered? h)).symm
  | map h _ _ _ => exact (isNull_of_entries? h).symm
  | object h _ _ _ _ => exact (isNull_of_entries? h).symm

/-- An attribute has its own value, unless it is null and has a default. -/
theorem attrOr_of_get? {name : String} {a b : Value} (ha : Fields.get? name entries = some a)
    (hb : attrOr d name entries = some b) :
    b = a ∨ a.isNull = true ∧ ofAttr name d = some b := by
  rw [attrOr, ha] at hb
  dsimp only at hb
  split at hb
  · next hnull =>
    rcases Option.or_eq_some_iff.1 hb with hb | ⟨-, hb⟩
    · exact .inr ⟨hnull, hb⟩
    · exact .inl (Option.some.inj hb).symm
  · exact .inl (Option.some.inj hb).symm

/-- An attribute with a default has it or something that is not null. -/
theorem attrOr_of_ofAttr {name : String} {a : Value} (ha : ofAttr name d = some a)
    (entries : Fields Value) :
    ∃ b, attrOr d name entries = some b ∧ (b = a ∨ b.isNull = false) := by
  rw [attrOr, ha]
  cases Fields.get? name entries with
  | none => exact ⟨a, rfl, .inl rfl⟩
  | some own =>
    cases hnull : own.isNull with
    | true => exact ⟨a, by simp [hnull], .inl rfl⟩
    | false => exact ⟨own, by simp [hnull], .inr hnull⟩

/-- What a value has become stays as it is: a default that is not null is not filled in again, and
one that is null is the null that the attribute has. -/
theorem Completes.fixed (h : Completes d t v r) (ht : t.Static) : Completes d t r r := by
  induction h with
  | @sensitive d t v r _ _ ih =>
    cases hm : r.isMarked with
    | false =>
      have hmark := Completes.sensitive hm (ih ht)
      rwa [← mark_of_isMarked_eq_false hm] at hmark
    | true =>
      rw [mark_of_isMarked hm]
      exact ih ht
  | null hne => exact .null hne
  | unknown hne _ => exact .unknown hne (Ty.mayConvert_self _)
  | primitive hne h =>
    rcases convertPrimitive_cases h with ⟨rfl, _⟩ | ⟨rfl, b, rfl⟩ | ⟨rfl, n, rfl⟩ | ⟨rfl, s, rfl⟩
    · contradiction
    · exact .primitive hne rfl
    · exact .primitive hne rfl
    · exact .primitive hne rfl
  | @list d e v items rs _ hlength _ ih =>
    have he := ht.part (u := e) List.mem_cons_self
    have hfixed := forall_mem_of_getElem? hlength fun i a r ha hr => ih i a r ha hr he
    refine .list rfl rfl fun i a r ha hr => ?_
    cases ha.symm.trans hr
    exact hfixed a (List.mem_of_getElem? ha)
  | @set d e v items rs _ hlength _ ih =>
    have he := ht.part (u := e) List.mem_cons_self
    have hfixed := forall_mem_of_getElem? hlength fun i a r ha hr => ih i a r ha hr he
    have hset : setOf e (distinctFrom [] rs) = setOf e rs :=
      congrArg (Value.set e) (distinctFrom_distinctFrom rs)
    have hsame : Completes d (.set e) (setOf e rs) (setOf e (distinctFrom [] rs)) := by
      refine .set rfl rfl fun i a r ha hr => ?_
      cases ha.symm.trans hr
      exact hfixed a ((mem_distinctFrom (List.mem_of_getElem? ha)).resolve_left List.not_mem_nil)
    rwa [hset] at hsame
  | @tuple d ts v items rs _ hts hlength _ ih =>
    refine .tuple rfl (hlength.trans hts) rfl fun i a t r ha htype hr => ?_
    cases ha.symm.trans hr
    obtain ⟨hlt, -⟩ := List.getElem?_eq_some_iff.1 ha
    have hin : (Ty.tuple ts).Inside (toString i) t := .tuple htype
    exact ih i _ t a (List.getElem?_eq_getElem (hlength ▸ hlt)) htype ha (ht.part hin.mem_parts)
  | @map d e v entries rs _ hkeys _ ih =>
    have he := ht.part (u := e) List.mem_cons_self
    have hfixed := forall_mem_of_getElem? (Fields.length_eq_of_keys hkeys)
      fun i p q hp hq => ih i p q hp hq he
    refine .map rfl rfl fun i p q hp hq => ?_
    cases hp.symm.trans hq
    exact hfixed p (List.mem_of_getElem? hp)
  | @object d attrs optional v entries fields _ hkeys hpart hnull ih =>
    have hin {name : String} {u : Ty} (hu : Fields.get? name attrs = some u) : u.Static :=
      ht.part (Ty.mem_parts_of_attr? hu)
    refine .object rfl hkeys (fun name u x a hu hx ha => ?_) fun name u x hu hx ha => ?_
    · rcases attrOr_of_get? hx ha with rfl | ⟨hxnull, hdefault⟩
      · cases hb : attrOr d name entries with
        | none =>
          obtain ⟨-, rfl⟩ := hnull name u a hu hx hb
          exact .null (hin hu).ne_dynamic
        | some b => exact ih name u a b hu hx hb (hin hu)
      -- What the attribute became is null, so it became what the default becomes.
      · obtain ⟨b, hb, rfl | hbnull⟩ := attrOr_of_ofAttr hdefault entries
        · exact hpart name u x b hu hx hb
        · rw [(hpart name u x b hu hx hb).isNull_eq, hbnull] at hxnull
          cases hxnull
    · rw [attrOr, hx] at ha
      dsimp only at ha
      split at ha
      · simp at ha
      · cases ha

end StaticConfig.Defaults

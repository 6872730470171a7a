import StaticConfig.Eval.Basic
import StaticConfig.Proofs.Builtin.Arguments
import StaticConfig.Proofs.Conversion.Exact
import StaticConfig.Proofs.Unification.Reach

/-!
Values of types that have a type in common convert to it, and the results are of this type. So
conditionals, lists and merged maps, which keep a value as it is where it does not convert, never
have to: nulls, unknown values and marks may stand anywhere in the values, and markers of optional
attributes do not count.
-/
namespace StaticConfig

namespace Ty

theorem Like.positions {ts us : List Ty} (hlen : ts.length = us.length)
    (h : ∀ p ∈ ts.zip us, p.1.Like p.2) : (tuple ts).Like (tuple us) := by
  have hmap : ts.map allRequired = us.map allRequired := by
    induction ts generalizing us with
    | nil =>
      have hus : us = [] := List.length_eq_zero_iff.1 hlen.symm
      rw [hus]
    | cons t ts ih =>
      cases us with
      | nil => cases hlen
      | cons u us =>
        obtain ⟨htu, hrest⟩ := List.forall_mem_cons.1 h
        rw [List.map_cons, List.map_cons, ih (Nat.succ.inj hlen) hrest, htu]
  rw [Like, allRequired, allRequired, allRequiredList_eq_map, allRequiredList_eq_map, hmap]

theorem Like.attributes {ts us : Fields Ty} {optional optional' : Names}
    (h : Fields.Related Like ts us) : (object ts optional).Like (object us optional') := by
  have hfields : allRequiredFields ts = allRequiredFields us := by
    induction h with
    | nil => rfl
    | cons htu _ ih => rw [allRequiredFields, allRequiredFields, ih, htu]
  rw [Like, allRequired, allRequired, hfields]

theorem mem_parts_of_elementType? {t e : Ty} (h : t.elementType? = some e) : e ∈ t.parts := by
  cases t with
  | list e => cases h; exact List.mem_cons_self
  | set e => cases h; exact List.mem_cons_self
  | map e => cases h; exact List.mem_cons_self
  | _ => cases h

theorem Mixed.pair {t u : Ty} (ht : t ≠ .dynamic) (hu : u ≠ .dynamic) (hne : t ≠ u) :
    Mixed [t, u] := by
  refine ⟨by simp [Ne.symm ht, Ne.symm hu], fun x => ?_⟩
  by_cases hx : t = x
  · exact ⟨u, by simp, fun h => hne (hx.trans h.symm)⟩
  · exact ⟨t, by simp, hx⟩

/-- Only a value of the same primitive type, or any primitive value where text is wanted. -/
theorem ConvertsTo.of_isPrimitive {t want : Ty} (h : ConvertsTo t want)
    (ht : t.isPrimitive = true) : want = t ∨ want = .string := by
  cases h with
  | bool => exact .inl rfl
  | number => exact .inl rfl
  | string _ => exact .inr rfl
  | list hsequence _ => cases t <;> cases ht <;> cases hsequence
  | map hmapping _ => cases t <;> cases ht <;> cases hmapping
  | object hobject _ _ => cases t <;> cases ht <;> cases hobject
  | _ => cases ht

end Ty

namespace Value

/-- The elements of every collection in the value are of the element type it declares, up to
markers of optional attributes. -/
inductive WellFormed : Value → Prop
  | null {t : Ty} : WellFormed (.null t)
  | unknown {t : Ty} : WellFormed (.unknown t)
  | bool {b : Bool} : WellFormed (.bool b)
  | number {n : Number} : WellFormed (.number n)
  | string {s : String} : WellFormed (.string s)
  | list {e : Ty} {items : List Value} : (∀ v ∈ items, v.ty.Like e) →
      (∀ v ∈ items, WellFormed v) → WellFormed (.list e items)
  | set {e : Ty} {items : List Value} : (∀ v ∈ items, v.ty.Like e) →
      (∀ v ∈ items, WellFormed v) → WellFormed (.set e items)
  | map {e : Ty} {entries : List (String × Value)} : (∀ p ∈ entries, p.2.ty.Like e) →
      (∀ p ∈ entries, WellFormed p.2) → WellFormed (.map e entries)
  | tuple {items : List Value} : (∀ v ∈ items, WellFormed v) → WellFormed (.tuple items)
  | object {attrs : List (String × Value)} : (∀ p ∈ attrs, WellFormed p.2) →
      WellFormed (.object attrs)
  | sensitive {v : Value} : WellFormed v → WellFormed (.sensitive v)

/-- A well-formed value of the type, up to markers of optional attributes. -/
def Fits (v : Value) (t : Ty) : Prop := v.ty.Like t ∧ v.WellFormed

theorem WellFormed.of_entries? {v : Value} (h : v.WellFormed) {entries : Fields Value}
    (hv : v.entries? = some entries) : ∀ p ∈ entries, p.2.WellFormed := by
  cases h with
  | map _ hentries => cases hv; exact hentries
  | object hentries => cases hv; exact hentries
  | _ => cases hv

/-! Values convert to types that their own type converts to. -/

/-- Whatever the items of a list should convert to, the list does when they do. -/
theorem exists_sequenceTo_list {v : Value} {items : List Value} {ordered : Bool}
    {all : Ty → Except ConversionError (List Value)}
    {each : List Ty → Except ConversionError (List Value)} {e : Ty} (he : e.hasDynamic = false)
    (h : ∃ rs, all e = .ok rs) : ∃ r, sequenceTo v items ordered all each (.list e) = .ok r := by
  obtain ⟨rs, hrs⟩ := h
  refine ⟨list e rs, ?_⟩
  simp [sequenceTo, elementTarget, he, hrs, bind, Except.bind, Except.map]

/-- The same of sets, which drop equal items after that. -/
theorem exists_sequenceTo_set {v : Value} {items : List Value} {ordered : Bool}
    {all : Ty → Except ConversionError (List Value)}
    {each : List Ty → Except ConversionError (List Value)} {e : Ty} (he : e.hasDynamic = false)
    (h : ∃ rs, all e = .ok rs) : ∃ r, sequenceTo v items ordered all each (.set e) = .ok r := by
  obtain ⟨rs, hrs⟩ := h
  refine ⟨setOf e rs, ?_⟩
  simp [sequenceTo, elementTarget, he, hrs, bind, Except.bind, Except.map]

theorem exists_sequenceTo_tuple {v : Value} {items : List Value}
    {all : Ty → Except ConversionError (List Value)}
    {each : List Ty → Except ConversionError (List Value)} {wants : List Ty}
    (hlen : items.length = wants.length) (h : ∃ rs, each wants = .ok rs) :
    ∃ r, sequenceTo v items true all each (.tuple wants) = .ok r := by
  obtain ⟨rs, hrs⟩ := h
  refine ⟨tuple rs, ?_⟩
  simp [sequenceTo, hlen, hrs, Except.map]

theorem exists_mappingTo_map {v : Value} {entries : Fields Value}
    {all : Ty → Except ConversionError (Fields Value)}
    {named : List (String × Ty) → Fields (Except ConversionError Value)} {e : Ty}
    (he : e.hasDynamic = false) (h : ∃ rs, all e = .ok rs) :
    ∃ r, mappingTo v entries all named (.map e) = .ok r := by
  obtain ⟨rs, hrs⟩ := h
  refine ⟨map e rs, ?_⟩
  simp [mappingTo, elementTarget, he, hrs, bind, Except.bind, Except.map]

/-- An object has every attribute that is wanted once the attributes convert. -/
theorem exists_mappingTo_object {v : Value} {entries : Fields Value}
    {all : Ty → Except ConversionError (Fields Value)}
    {named : List (String × Ty) → Fields (Except ConversionError Value)} {wants : List (String × Ty)}
    {optional : Names}
    (h : ∀ name ∈ Fields.keys wants, ∃ r, Fields.get? name (named wants) = some (.ok r)) :
    ∃ r, mappingTo v entries all named (.object wants optional) = .ok r := by
  obtain ⟨fields, hfields, -⟩ := collectAttrs_of_converted optional h
  exact ⟨object fields, by rw [mappingTo, hfields]; rfl⟩

theorem ty_mem_parts_tuple {items : List Value} {v : Value} (hv : v ∈ items) :
    v.ty ∈ (tuple items).ty.parts := by
  rw [ty, Ty.parts, types_eq_map]
  exact List.mem_map_of_mem hv

theorem ty_mem_parts_object {attrs : Fields Value} {p : String × Value} (hp : p ∈ attrs) :
    p.2.ty ∈ (object attrs).ty.parts := by
  rw [ty, Ty.plainObject, Ty.parts, fieldTypes_eq]
  exact List.mem_map.2 ⟨(p.1, p.2.ty), List.mem_map.2 ⟨p, hp, rfl⟩, rfl⟩

theorem attrNames_ty_object (attrs : Fields Value) :
    (object attrs).ty.attrNames = Fields.keys attrs := by
  rw [ty, Ty.plainObject, Ty.attrNames, fieldTypes_eq, Fields.keys_mapValues]

theorem attr?_ty_object (attrs : Fields Value) (name : String) :
    (object attrs).ty.attr? name = (Fields.get? name attrs).map ty := by
  rw [ty, Ty.plainObject, Ty.attr?, fieldTypes_eq, Fields.get?_mapValues]

open Ty (ConvertsTo)

mutual

theorem exists_convert : ∀ (v : Value) {want : Ty}, v.WellFormed → want.hasDynamic = false →
    ConvertsTo v.ty want → ∃ r, convert v want = .ok r
  | .sensitive v, want, hv, hw, h => by
    cases hv with
    | sensitive hv =>
      obtain ⟨r, hr⟩ := exists_convert v hv hw h
      exact ⟨r.mark, by rw [convert, hr]; rfl⟩
  | .null t, want, _, _, _ => ⟨_, rfl⟩
  | .unknown t, want, _, _, h => by
    have hmay : t.mayConvert want = true := h.mayConvert
    unfold convert
    split
    · exact ⟨_, rfl⟩
    · exact ⟨_, rfl⟩
  | .bool b, want, _, _, h => by
    rcases h.of_isPrimitive rfl with rfl | rfl
    · exact ⟨.bool b, rfl⟩
    · exact ⟨_, rfl⟩
  | .number n, want, _, _, h => by
    rcases h.of_isPrimitive rfl with rfl | rfl
    · exact ⟨.number n, rfl⟩
    · exact ⟨_, rfl⟩
  | .string s, want, _, _, h => by
    rcases h.of_isPrimitive rfl with rfl | rfl
    · exact ⟨.string s, rfl⟩
    · exact ⟨.string s, rfl⟩
  | .list t items, want, hv, hw, h => by
    cases hv with
    | list hitems hvs =>
      cases h with
      | list _ h =>
        have ht := h t List.mem_cons_self
        exact exists_sequenceTo_list hw
          (exists_convertItems items 0 hvs hw fun v hv => ht.of_like (hitems v hv))
      | string hprimitive => cases hprimitive
      | map hmapping _ => cases hmapping
      | object hobject _ _ => cases hobject
  | .set t items, want, hv, hw, h => by
    cases hv with
    | set hitems hvs =>
      cases h with
      | list _ h =>
        have ht := h t List.mem_cons_self
        exact exists_sequenceTo_list hw
          (exists_convertItems items 0 hvs hw fun v hv => ht.of_like (hitems v hv))
      | set h =>
        exact exists_sequenceTo_set hw
          (exists_convertItems items 0 hvs hw fun v hv => h.of_like (hitems v hv))
      | string hprimitive => cases hprimitive
      | map hmapping _ => cases hmapping
      | object hobject _ _ => cases hobject
  | .tuple items, want, hv, hw, h => by
    cases hv with
    | tuple hvs =>
      cases h with
      | list _ h =>
        exact exists_sequenceTo_list hw
          (exists_convertItems items 0 hvs hw fun v hv => h v.ty (ty_mem_parts_tuple hv))
      | @tuple _ wants hlen h =>
        rw [types_eq_map, List.length_map] at hlen
        refine exists_sequenceTo_tuple hlen (exists_convertEach items 0 hvs
          (fun t ht => Ty.anyDynamic_eq_false hw ht) fun p hp => h (p.1.ty, p.2) ?_)
        rw [types_eq_map, List.zip_map_left]
        exact List.mem_map.2 ⟨p, hp, rfl⟩
      | string hprimitive => cases hprimitive
      | map hmapping _ => cases hmapping
      | object hobject _ _ => cases hobject
  | .map t entries, want, hv, hw, h => by
    cases hv with
    | map hentries hvs =>
      cases h with
      | map _ h =>
        have ht := h t List.mem_cons_self
        exact exists_mappingTo_map hw
          (exists_convertEntries entries hvs hw fun p hp => ht.of_like (hentries p hp))
      | string hprimitive => cases hprimitive
      | list hsequence _ => cases hsequence
      | object hobject _ _ => cases hobject
  | .object attrs, want, hv, hw, h => by
    cases hv with
    | object hvs =>
      cases h with
      | map _ h =>
        exact exists_mappingTo_map hw
          (exists_convertEntries attrs hvs hw fun p hp => h p.2.ty (ty_mem_parts_object hp))
      | @object _ wants optional _ hnames h =>
        refine exists_mappingTo_object fun name hname => ?_
        obtain ⟨t, ht⟩ := Fields.exists_get?_of_mem_keys hname
        rw [← hnames, attrNames_ty_object] at hname
        obtain ⟨v, hv⟩ := Fields.exists_get?_of_mem_keys hname
        have hattr : (Value.object attrs).ty.attr? name = some v.ty := by
          rw [attr?_ty_object, hv]
          rfl
        obtain ⟨r, hr⟩ := exists_convertAttr attrs hvs hv
          (Ty.anyFieldDynamic_eq_false hw ht) (h name v.ty t hattr ht)
        exact ⟨r, by rw [get?_convertAttrs, hv, ht, ← hr]⟩
      | string hprimitive => cases hprimitive
      | list hsequence _ => cases hsequence

theorem exists_convertItems : ∀ (items : List Value) (start : Nat) {want : Ty},
    (∀ v ∈ items, v.WellFormed) → want.hasDynamic = false →
    (∀ v ∈ items, ConvertsTo v.ty want) → ∃ rs, convertItems start items want = .ok rs
  | [], _, _, _, _, _ => ⟨[], rfl⟩
  | v :: vs, start, want, hwell, hw, h => by
    obtain ⟨hv, hvs⟩ := List.forall_mem_cons.1 hwell
    obtain ⟨hto, hrest⟩ := List.forall_mem_cons.1 h
    obtain ⟨r, hr⟩ := exists_convert v hv hw hto
    obtain ⟨rs, hrs⟩ := exists_convertItems vs (start + 1) hvs hw hrest
    exact ⟨r :: rs, by simp [convertItems, hr, hrs, Except.map]⟩

theorem exists_convertEach : ∀ (items : List Value) (start : Nat) {wants : List Ty},
    (∀ v ∈ items, v.WellFormed) → (∀ t ∈ wants, t.hasDynamic = false) →
    (∀ p ∈ items.zip wants, ConvertsTo p.1.ty p.2) →
    ∃ rs, convertEach start items wants = .ok rs
  | [], _, _, _, _, _ => ⟨[], by rw [convertEach]; nofun⟩
  | _ :: _, _, [], _, _, _ => ⟨[], rfl⟩
  | v :: vs, start, t :: ts, hwell, hw, h => by
    obtain ⟨hv, hvs⟩ := List.forall_mem_cons.1 hwell
    obtain ⟨ht, hts⟩ := List.forall_mem_cons.1 hw
    obtain ⟨hto, hrest⟩ := List.forall_mem_cons.1 h
    obtain ⟨r, hr⟩ := exists_convert v hv ht hto
    obtain ⟨rs, hrs⟩ := exists_convertEach vs (start + 1) hvs hts hrest
    exact ⟨r :: rs, by simp [convertEach, hr, hrs, Except.map]⟩

theorem exists_convertEntries : ∀ (entries : List (String × Value)) {want : Ty},
    (∀ p ∈ entries, p.2.WellFormed) → want.hasDynamic = false →
    (∀ p ∈ entries, ConvertsTo p.2.ty want) → ∃ rs, convertEntries entries want = .ok rs
  | [], _, _, _, _ => ⟨[], rfl⟩
  | (k, v) :: rest, want, hwell, hw, h => by
    obtain ⟨hv, hvs⟩ := List.forall_mem_cons.1 hwell
    obtain ⟨hto, hrest⟩ := List.forall_mem_cons.1 h
    obtain ⟨r, hr⟩ := exists_convert v hv hw hto
    obtain ⟨rs, hrs⟩ := exists_convertEntries rest hvs hw hrest
    exact ⟨(k, r) :: rs, by simp [convertEntries, hr, hrs, Except.map]⟩

theorem exists_convertAttr : ∀ (attrs : List (String × Value)) {name : String} {v : Value}
    {want : Ty}, (∀ p ∈ attrs, p.2.WellFormed) → Fields.get? name attrs = some v →
    want.hasDynamic = false → ConvertsTo v.ty want → ∃ r, convert v want = .ok r
  | [], _, _, _, _, hget, _, _ => by cases hget
  | (k, u) :: rest, name, v, want, hwell, hget, hw, h => by
    obtain ⟨hu, hrest⟩ := List.forall_mem_cons.1 hwell
    by_cases hk : k = name
    · simp only [Fields.get?, hk, if_true, Option.some.injEq] at hget
      subst hget
      exact exists_convert u hu hw h
    · simp only [Fields.get?, hk, if_false] at hget
      exact exists_convertAttr rest hrest hget hw h

end

/-! Converted values are of the wanted type. -/

theorem Fits.mark {v : Value} {t : Ty} (h : v.Fits t) : v.mark.Fits t := by
  obtain ⟨hlike, hv⟩ := h
  cases v with
  | sensitive v => exact ⟨hlike, hv⟩
  | _ => exact ⟨hlike, .sensitive hv⟩

theorem Fits.of_positions {items : List Value} {elems : List Ty}
    (hlen : items.length = elems.length) (h : ∀ p ∈ items.zip elems, p.1.Fits p.2) :
    (tuple items).Fits (.tuple elems) := by
  refine ⟨.positions (by rw [types_eq_map, List.length_map, hlen]) fun p hp => ?_,
    .tuple fun v hv => ?_⟩
  · rw [types_eq_map, List.zip_map_left] at hp
    obtain ⟨q, hq, rfl⟩ := List.mem_map.1 hp
    exact (h q hq).1
  · obtain ⟨i, hi, rfl⟩ := List.mem_iff_getElem.1 hv
    have hmem : (items[i], elems[i]) ∈ items.zip elems :=
      List.mem_iff_getElem.2 ⟨i, by rw [List.length_zip]; omega, List.getElem_zip⟩
    exact (h _ hmem).2

theorem Fits.of_related {fields : Fields Value} {attrs : Fields Ty} {optional : Names}
    (h : Fields.Related Fits fields attrs) : (object fields).Fits (.object attrs optional) := by
  constructor
  · have hrelated : Fields.Related Ty.Like (fieldTypes fields) attrs := by
      induction h with
      | nil => exact .nil
      | cons hv _ ih => exact .cons hv.1 ih
    exact .attributes hrelated
  · have hwell : ∀ p ∈ fields, p.2.WellFormed := by
      induction h with
      | nil => exact List.forall_mem_nil _
      | cons hv _ ih => exact List.forall_mem_cons.2 ⟨hv.2, ih⟩
    exact .object hwell

theorem establishes_fits : Establishes Ty.Static Fits where
  element hw he := hw.part (Ty.mem_parts_of_elementType? he)
  position hw ht := hw.part ht
  attr hw ht := hw.part (Ty.mem_parts_of_attr? ht)
  dynamic _ hw := absurd rfl hw.ne_dynamic
  mark := Fits.mark
  null _ := ⟨rfl, .null⟩
  unknown _ := ⟨rfl, .unknown⟩
  bool _ := ⟨rfl, .bool⟩
  number _ := ⟨rfl, .number⟩
  string _ := ⟨rfl, .string⟩
  list hw h := by
    obtain ⟨rfl, hitems⟩ := h hw.known
    exact ⟨rfl, .list (fun v hv => (hitems v hv).1) fun v hv => (hitems v hv).2⟩
  set hw h := by
    obtain ⟨rfl, hitems⟩ := h hw.known
    exact ⟨rfl, .set (fun v hv => (hitems v hv).1) fun v hv => (hitems v hv).2⟩
  map hw h := by
    obtain ⟨rfl, hentries⟩ := h hw.known
    exact ⟨rfl, .map (fun p hp => (hentries p hp).1) fun p hp => (hentries p hp).2⟩
  tuple _ hlen h := .of_positions hlen h
  object hw hkeys h :=
    .of_related (.of_get? ((Fields.sorted_iff_keys _).2 hw.names) hkeys h)

/-! Values of types that have a type in common. -/

/-- A value of one of the types converts to the type they have in common. -/
theorem Fits.convert {ts : List Ty} {want t : Ty} {v : Value} (hts : ∀ t ∈ ts, t.Static)
    (hunify : Ty.unify ts = some want) (ht : t ∈ ts) (hv : v.Fits t) :
    ∃ r, v.convert want = .ok r ∧ r.Fits want := by
  obtain ⟨hlike, hwell⟩ := hv
  obtain ⟨hwant, hto⟩ :=
    (Ty.unified_of_unify hunify).convertsTo (List.ne_nil_of_mem ht) hts
  obtain ⟨r, hr⟩ := exists_convert v hwell hwant.known ((hto t ht).of_like hlike)
  exact ⟨r, hr, establishes_fits.of_convert v hwant hr⟩

/-- All the values convert to the type that they have in common. -/
theorem exists_convertedAll {vs : List Value} {want : Ty} (hwell : ∀ v ∈ vs, v.WellFormed)
    (hts : ∀ t ∈ types vs, t.Static) (hunify : Ty.unify (types vs) = some want) :
    ∃ rs, Builtin.convertedAll want vs = some rs := by
  have hconvert (v : Value) (hv : v ∈ vs) : ∃ r, v.convert want = .ok r := by
    have ht : v.ty ∈ types vs := by
      rw [types_eq_map]
      exact List.mem_map_of_mem hv
    obtain ⟨r, hr, -⟩ := Fits.convert hts hunify ht ⟨rfl, hwell v hv⟩
    exact ⟨r, hr⟩
  clear hwell hts hunify
  simp only [Builtin.convertedAll_eq_some_iff]
  induction vs with
  | nil => exact ⟨[], .nil⟩
  | cons v vs ih =>
    obtain ⟨hv, hvs⟩ := List.forall_mem_cons.1 hconvert
    obtain ⟨r, hr⟩ := hv
    obtain ⟨rs, hrs⟩ := ih hvs
    exact ⟨r :: rs, .cons hr hrs⟩

theorem wellFormed_mergedInto {acc entries : Fields Value} {args : List Value}
    (hacc : ∀ p ∈ acc, p.2.WellFormed) (hargs : ∀ v ∈ args, v.WellFormed)
    (h : Builtin.Collections.mergedInto acc args = .ok entries) :
    ∀ p ∈ entries, p.2.WellFormed :=
  Builtin.Collections.forall_mergedInto hacc (fun v hv _ hes => (hargs v hv).of_entries? hes) h

/-! What is done with such values. -/

open Eval in
/-- The branch taken is the converted one. -/
theorem chooseBranch_eq_converted {cond : Value} {condSpan span : Span} {yes no : Report Value}
    {want : Ty} {decision : Option Bool} {y n : Value} (hnull : cond.bare.isNull = false)
    (htruth : truth cond.bare = .ok decision)
    (hunify : Ty.unify [yes.result.ty, no.result.ty] = some want)
    (hy : yes.result.convert want = .ok y) (hn : no.result.convert want = .ok n) :
    chooseBranch cond condSpan span yes no = (do
      match decision with
      | none => do
        tell (yes.diags ++ no.diags)
        pure ((unknown want).markIf cond.hasMark)
      | some true => do
        tell yes.diags
        pure (y.markIf cond.hasMark)
      | some false => do
        tell no.diags
        pure (n.markIf cond.hasMark)) := by
  have hyes : yes.result.convert? want = some y := by rw [convert?, hy]; rfl
  have hno : no.result.convert? want = some n := by rw [convert?, hn]; rfl
  simp only [chooseBranch, hnull, htruth, hunify, hyes, hno, Option.getD_some]
  cases decision with
  | none => rfl
  | some b =>
    cases b with
    | true => rfl
    | false => rfl

theorem listOrTuple_eq_list {items rs : List Value} {want : Ty} (hne : items ≠ [])
    (hunify : Ty.unify (types items) = some want)
    (hrs : Builtin.convertedAll want items = some rs) :
    Builtin.listOrTuple items = .list want rs := by
  have hempty : items.isEmpty = false := List.isEmpty_eq_false_iff.2 hne
  simp [Builtin.listOrTuple, hempty, hunify, hrs]

open Builtin.Collections in
theorem merge_eq_map {args rs : List Value} {entries : Fields Value} {want : Ty}
    (hmaps : ∀ v ∈ args, v.isNull = true ∨ isMap v = true)
    (hmerged : mergedInto [] args = .ok entries) (hne : entries ≠ [])
    (hunify : Ty.unify (types entries.values) = some want)
    (hrs : Builtin.convertedAll want entries.values = some rs) :
    merge args = .ok (.map want (entries.keys.zip rs)) := by
  have hall : (args.all fun v => v.isNull || isMap v) = true := by
    rw [List.all_eq_true]
    exact fun v hv => Bool.or_eq_true_iff.2 (hmaps v hv)
  have hempty : entries.isEmpty = false := List.isEmpty_eq_false_iff.2 hne
  have hmap : mapOf? entries = some (.map want (entries.keys.zip rs)) := by
    simp [mapOf?, hunify, hrs]
  simp [merge, hmerged, hall, hempty, hmap, bind, Except.bind]

end Value

open Value Eval Builtin Builtin.Collections in
/-- The type found for types without `dynamic` has none either, and all values of these types
convert to values of it. So a conditional gives the conversion of the branch taken, a list of values
of such types consists of their conversions, and so does a map that is merged from maps. -/
theorem Ty.unify_convertible :
    (∀ (ts : List Ty) (want : Ty), ts ≠ [] → (∀ t ∈ ts, t.Static) → unify ts = some want →
      want.hasDynamic = false ∧ ∀ t ∈ ts, ∀ v : Value, v.Fits t →
        ∃ r, v.convert want = .ok r ∧ r.Fits want) ∧
    (∀ (cond : Value) (condSpan span : Span) (yes no : Report Value) (want : Ty)
        (decision : Option Bool), yes.result.ty.Static → no.result.ty.Static →
      yes.result.WellFormed → no.result.WellFormed →
      unify [yes.result.ty, no.result.ty] = some want → cond.bare.isNull = false →
      truth cond.bare = .ok decision →
        ∃ y n, yes.result.convert want = .ok y ∧ no.result.convert want = .ok n ∧
          chooseBranch cond condSpan span yes no = (do
            match decision with
            | none => do
              tell (yes.diags ++ no.diags)
              pure ((Value.unknown want).markIf cond.hasMark)
            | some true => do
              tell yes.diags
              pure (y.markIf cond.hasMark)
            | some false => do
              tell no.diags
              pure (n.markIf cond.hasMark))) ∧
    (∀ (items : List Value) (want : Ty), items ≠ [] → (∀ v ∈ items, v.WellFormed) →
      (∀ t ∈ types items, t.Static) → unify (types items) = some want →
        ∃ rs, convertedAll want items = some rs ∧ listOrTuple items = .list want rs) ∧
    (∀ (args : List Value) (entries : Fields Value) (want : Ty), (∀ v ∈ args, v.WellFormed) →
      (∀ v ∈ args, v.isNull = true ∨ isMap v = true) → mergedInto [] args = .ok entries →
      entries ≠ [] → (∀ t ∈ types entries.values, t.Static) →
      unify (types entries.values) = some want →
        ∃ rs, convertedAll want entries.values = some rs ∧
          merge args = .ok (.map want (entries.keys.zip rs))) := by
  refine ⟨fun ts want hne hts hunify => ?_, ?_, ?_, ?_⟩
  · obtain ⟨hwant, -⟩ := (unified_of_unify hunify).convertsTo hne hts
    exact ⟨hwant.known, fun t ht v hv => hv.convert hts hunify ht⟩
  · intro cond condSpan span yes no want decision hys hns hyes hno hunify hnull htruth
    have hts : ∀ t ∈ [yes.result.ty, no.result.ty], t.Static := by
      rw [List.forall_mem_cons, List.forall_mem_singleton]
      exact ⟨hys, hns⟩
    have hyes : yes.result.Fits yes.result.ty := ⟨rfl, hyes⟩
    have hno : no.result.Fits no.result.ty := ⟨rfl, hno⟩
    obtain ⟨y, hy, -⟩ := hyes.convert hts hunify (by simp)
    obtain ⟨n, hn, -⟩ := hno.convert hts hunify (by simp)
    exact ⟨y, n, hy, hn, chooseBranch_eq_converted hnull htruth hunify hy hn⟩
  · intro items want hne hwell hts hunify
    obtain ⟨rs, hrs⟩ := exists_convertedAll hwell hts hunify
    exact ⟨rs, hrs, listOrTuple_eq_list hne hunify hrs⟩
  · intro args entries want hwell hmaps hmerged hne hts hunify
    have hentries := wellFormed_mergedInto (List.forall_mem_nil _) hwell hmerged
    have hvalues : ∀ v ∈ entries.values, v.WellFormed := by
      intro v hv
      obtain ⟨p, hp, rfl⟩ := List.mem_map.1 hv
      exact hentries p hp
    obtain ⟨rs, hrs⟩ := exists_convertedAll hvalues hts hunify
    exact ⟨rs, hrs, merge_eq_map hmaps hmerged hne hunify hrs⟩

open Value Eval Builtin Builtin.Collections in
/-- A number and a truth value, alone and in sequences. -/
theorem Ty.unify_convertible_number_bool :
    (∃ r, (Value.tuple [.sensitive (.ofNat 1)]).convert (list string) = .ok r ∧
        r.Fits (list string)) ∧
      (∃ y, (Value.ofNat 1).convert string = .ok y ∧
        chooseBranch (.bool true) default default ⟨.ofNat 1, []⟩ ⟨.bool true, []⟩ =
          (do tell []; pure y)) ∧
      (∃ rs, convertedAll string [.ofNat 1, .bool true] = some rs ∧
        listOrTuple [.ofNat 1, .bool true] = .list string rs) ∧
      ∃ rs, convertedAll string [.ofNat 1, .bool true] = some rs ∧
        merge [.map number [("a", .ofNat 1)], .map bool [("b", .bool true)]] =
          .ok (.map string (["a", "b"].zip rs)) := by
  have hnumber : number.Static := .of_parts nofun .nil nofun
  have hbool : bool.Static := .of_parts nofun .nil nofun
  have hboth : ∀ t ∈ [number, bool], t.Static := by
    rw [List.forall_mem_cons, List.forall_mem_singleton]
    exact ⟨hnumber, hbool⟩
  have hstring : Unified [number, bool] string := .primitive (.pair nofun nofun nofun) (by decide)
  have hunify := unify_of_unified hstring
  have hvalues : ∀ v ∈ [Value.ofNat 1, .bool true], v.WellFormed := by
    rw [List.forall_mem_cons, List.forall_mem_singleton]
    exact ⟨.number, .bool⟩
  obtain ⟨hconvert, hbranch, hlist, hmerge⟩ := unify_convertible
  refine ⟨?_, ?_, hlist _ _ nofun hvalues hboth hunify, ?_⟩
  · have hsequences : ∀ t ∈ [tuple [number], list bool], t.Static := by
      rw [List.forall_mem_cons, List.forall_mem_singleton]
      exact ⟨.of_parts nofun .nil (List.forall_mem_singleton.2 hnumber),
        .of_parts nofun .nil (List.forall_mem_singleton.2 hbool)⟩
    have hcommon : Unified [tuple [number], list bool] (list string) :=
      .sequence (.pair nofun nofun nofun) (by decide) hstring
    obtain ⟨-, hconvert⟩ := hconvert [tuple [number], list bool] (list string) nofun hsequences
      (unify_of_unified hcommon)
    have hwell : (Value.tuple [.sensitive (.ofNat 1)]).WellFormed :=
      .tuple (List.forall_mem_singleton.2 (.sensitive .number))
    exact hconvert (tuple [number]) List.mem_cons_self _ ⟨rfl, hwell⟩
  · obtain ⟨y, _, hy, -, hchoose⟩ := hbranch (.bool true) default default ⟨.ofNat 1, []⟩
      ⟨.bool true, []⟩ string (some true) hnumber hbool .number .bool hunify rfl rfl
    exact ⟨y, hy, hchoose⟩
  · have hargs : ∀ v ∈ [Value.map number [("a", .ofNat 1)], .map bool [("b", .bool true)]],
        v.WellFormed := by
      rw [List.forall_mem_cons, List.forall_mem_singleton]
      exact ⟨.map (List.forall_mem_singleton.2 rfl) (List.forall_mem_singleton.2 .number),
        .map (List.forall_mem_singleton.2 rfl) (List.forall_mem_singleton.2 .bool)⟩
    exact hmerge _ [("a", .ofNat 1), ("b", .bool true)] string hargs (by simp [isNull, isMap]) rfl
      nofun hboth hunify

end StaticConfig

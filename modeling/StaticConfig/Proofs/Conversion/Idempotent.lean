import StaticConfig.Proofs.Conversion.Converts
import StaticConfig.Proofs.Conversion.Parts
import StaticConfig.Proofs.Unification.Reach

/-!
A value that was converted to a type without `dynamic` converts to it without a change: nulls,
unknown values and marks stay, and the elements of sets keep their order. Variables rely on it, as
they are converted when they are declared and again each time they are looked up.
-/
namespace StaticConfig

theorem Ty.mayConvert_self (t : Ty) : t.mayConvert t = true := by
  cases t <;> rfl

namespace Value

open Ty (Static)

/-- Items that are left as they are. -/
theorem convertItems_of_fixed {items : List Value} {t : Ty} {start : Nat}
    (h : ∀ v ∈ items, convert v t = .ok v) : convertItems start items t = .ok items := by
  refine convertItems_iff_places.2 ⟨rfl, fun i a r ha hr => ?_⟩
  cases ha.symm.trans hr
  exact h a (List.mem_of_getElem? ha)

theorem convert_null_self {t : Ty} (ht : t ≠ .dynamic) : convert (null t) t = .ok (null t) := by
  rw [convert, if_neg (by simpa using ht)]

theorem convert_unknown_self {t : Ty} (ht : t ≠ .dynamic) :
    convert (unknown t) t = .ok (unknown t) := by
  rw [convert, if_neg (by simpa using ht), if_pos t.mayConvert_self]

/-- By induction on the conversion: its result has the items, entries and attributes of the type,
and each of them is left as it is. -/
theorem Converts.fixed {v r : Value} {want : Ty} (h : Converts v want r) (hw : want.Static) :
    convert r want = .ok r := by
  induction h with
  | sensitive _ ih => exact convert_mark (ih hw)
  | dynamic _ => exact absurd rfl hw.ne_dynamic
  | null ht => exact convert_null_self ht
  | unknown ht _ => exact convert_unknown_self ht
  | primitive _ h =>
    rcases convertPrimitive_cases h with ⟨rfl, _⟩ | ⟨rfl, b, rfl⟩ | ⟨rfl, n, rfl⟩ | ⟨rfl, s, rfl⟩
    · exact absurd rfl hw.ne_dynamic
    · rfl
    · rfl
    · rfl
  | @list _ items rs e t _ ht hlength _ ih =>
    have he := hw.part List.mem_cons_self
    obtain rfl := elementTarget_of_static he.known ht
    have hfixed := forall_mem_of_getElem? hlength fun i a r ha hr => ih i a r ha hr he
    rw [convert_list rfl he.known, convertItems_of_fixed hfixed]
    rfl
  | @set _ items rs e t _ ht hlength _ ih =>
    have he := hw.part List.mem_cons_self
    obtain rfl := elementTarget_of_static he.known ht
    have hfixed := forall_mem_of_getElem? hlength fun i a r ha hr => ih i a r ha hr he
    have hitems : convertItems 0 (distinctFrom [] rs) t = .ok (distinctFrom [] rs) :=
      convertItems_of_fixed fun r hr =>
        hfixed r ((mem_distinctFrom hr).resolve_left List.not_mem_nil)
    rw [setOf, convert_set rfl he.known, hitems]
    exact congrArg (fun items => Except.ok (Value.set t items)) (distinctFrom_distinctFrom rs)
  | @tuple _ items rs ts _ hts hlength _ ih =>
    have hrs : rs.length = ts.length := hlength.trans hts.symm
    have hitems : convertEach 0 rs ts = .ok rs := by
      refine (convertEach_iff_places hrs).2 ⟨rfl, fun i r t r' hr ht hr' => ?_⟩
      cases hr.symm.trans hr'
      obtain ⟨hlt, -⟩ := List.getElem?_eq_some_iff.1 hr
      have ha : items[i]? = some items[i] := List.getElem?_eq_getElem (hlength ▸ hlt)
      exact ih i _ t r ha ht hr (hw.part (List.mem_of_getElem? ht))
    rw [convert_tuple rfl hrs, hitems]
    rfl
  | @map _ entries rs e t _ ht hkeys _ ih =>
    have he := hw.part List.mem_cons_self
    obtain rfl := elementTarget_of_static he.known ht
    have hfixed := forall_mem_of_getElem? (Fields.length_eq_of_keys hkeys)
      fun i a r ha hr => ih i a r ha hr he
    have hentries : convertEntries rs t = .ok rs := by
      refine convertEntries_iff_places.2 ⟨rfl, fun i p q hp hq => ?_⟩
      cases hp.symm.trans hq
      exact hfixed p (List.mem_of_getElem? hp)
    rw [convert_map rfl he.known, hentries]
    rfl
  | @object _ entries fields attrs optional _ hkeys _ hnull ih =>
    have hattrs : Fields.Sorted attrs := (Fields.sorted_iff_keys attrs).2 hw.names
    refine (convert_object_eq_ok_iff rfl hattrs).2 ⟨fields, rfl, hkeys,
      fun name t x ht hx => ⟨fun a ha => ?_, fun ha => ?_⟩⟩
    · cases hx.symm.trans ha
      obtain ⟨i, hq, hp⟩ := Fields.exists_getElem?_of_get? hkeys hx ht
      have hin := hw.part (Ty.mem_parts_of_attr? ht)
      cases hown : Fields.get? name entries with
      | some own => exact ih i _ _ own t hp hq hown ht hin
      | none =>
        obtain rfl : x = Value.null t := hnull i _ _ hp hq hown
        exact convert_null_self hin.ne_dynamic
    · cases ha.symm.trans hx

/-- Converting a value a second time changes nothing. -/
theorem convert_idempotent {v r : Value} {want : Ty} (hw : want.Static)
    (h : v.convert want = .ok r) : r.convert want = .ok r :=
  (converts_of_convert v h).fixed hw

/-- A sensitive set that loses an element, and an attribute that is left out. -/
theorem convert_idempotent_services :
    let want : Ty := .list (.object [("id", .string), ("ports", .set .number)] ["ports"])
    let given := tuple
      [object [("id", string "a"), ("ports", sensitive (tuple [ofNat 80, ofNat 80]))],
        object [("id", string "b")]]
    let services := list (.object [("id", .string), ("ports", .set .number)] ["ports"])
      [object [("id", string "a"), ("ports", sensitive (set .number [ofNat 80]))],
        object [("id", string "b"), ("ports", null (.set .number))]]
    want.Static ∧ given.convert want = .ok services ∧ services.convert want = .ok services := by
  intro want given services
  have hstring : Ty.string.Static := .of_parts nofun .nil nofun
  have hnumber : Ty.number.Static := .of_parts nofun .nil nofun
  have hports : (Ty.set .number).Static :=
    .of_parts nofun .nil (List.forall_mem_singleton.2 hnumber)
  have hservice : (Ty.object [("id", .string), ("ports", .set .number)] ["ports"]).Static :=
    .of_parts nofun (by decide)
      (List.forall_mem_cons.2 ⟨hstring, List.forall_mem_singleton.2 hports⟩)
  have hw : want.Static := .of_parts nofun .nil (List.forall_mem_singleton.2 hservice)
  have h : given.convert want = .ok services := rfl
  exact ⟨hw, h, convert_idempotent hw h⟩

end Value

end StaticConfig

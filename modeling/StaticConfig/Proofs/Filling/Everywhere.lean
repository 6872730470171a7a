import StaticConfig.Proofs.Filling.Completes
import StaticConfig.Proofs.Filling.Covers

/-!
Defaults are filled in everywhere. A value that is filled in and converted to the type of a
constraint has no null for an attribute with a default, wherever the constraint describes an object
of it: below attributes, positions of tuples and elements of collections, and inside of what comes
from a default itself.
-/
namespace StaticConfig

open Value

namespace Defaults

variable {d : Option Defaults} {t e : Ty} {v r : Value}

theorem Completes.of_sensitive (h : Completes d t v (.sensitive r)) :
    ∃ w, Completes d t w r := by
  generalize hx : Value.sensitive r = x at h
  induction h with
  | @sensitive d t v y _ h ih =>
    cases hm : y.isMarked with
    | false =>
      rw [mark_of_isMarked_eq_false hm] at hx
      cases hx
      exact ⟨v, h⟩
    | true => exact ih (hx.trans (mark_of_isMarked hm))
  | primitive hne h =>
    subst hx
    rcases convertPrimitive_cases h with ⟨rfl, _⟩ | ⟨-, b, hb⟩ | ⟨-, n, hn⟩ | ⟨-, s, hs⟩
    · contradiction
    · cases hb
    · cases hn
    · cases hs
  | _ => cases hx

theorem Completes.of_items {rs : List Value} (h : Completes d t v r)
    (he : t.elementType? = some e) (hrs : r.items? = some rs) {a : Value} (ha : a ∈ rs) :
    ∃ w, Completes (inside elementKey d) e w a := by
  cases h with
  | @sensitive d t v r _ h => cases r <;> cases hrs
  | null _ => cases hrs
  | unknown _ _ => cases hrs
  | primitive hne h =>
    rcases convertPrimitive_cases h with ⟨rfl, _⟩ | ⟨rfl, _⟩ | ⟨rfl, _⟩ | ⟨rfl, _⟩ <;> cases he
  | list _ hlength hparts =>
    cases he
    cases hrs
    have hmade : ∀ a ∈ rs, ∃ w, Completes (inside elementKey d) e w a :=
      forall_mem_of_getElem? hlength fun i w a hw ha => ⟨w, hparts i w a hw ha⟩
    exact hmade a ha
  | @set _ _ _ _ rs _ hlength hparts =>
    cases he
    cases hrs
    have hmade : ∀ a ∈ rs, ∃ w, Completes (inside elementKey d) e w a :=
      forall_mem_of_getElem? hlength fun i w a hw ha => ⟨w, hparts i w a hw ha⟩
    exact hmade a ((mem_distinctFrom ha).resolve_left List.not_mem_nil)
  | tuple => cases he
  | map => cases hrs
  | object => cases he

theorem Completes.of_entries {rs : Fields Value} (h : Completes d t v r)
    (he : t.elementType? = some e) (hrs : r.entries? = some rs) {p : String × Value}
    (hp : p ∈ rs) : ∃ w, Completes (inside elementKey d) e w p.2 := by
  cases h with
  | @sensitive d t v r _ h => cases r <;> cases hrs
  | null _ => cases hrs
  | unknown _ _ => cases hrs
  | primitive hne h =>
    rcases convertPrimitive_cases h with ⟨rfl, _⟩ | ⟨rfl, _⟩ | ⟨rfl, _⟩ | ⟨rfl, _⟩ <;> cases he
  | list => cases hrs
  | set => cases hrs
  | tuple => cases he
  | map _ hkeys hparts =>
    cases he
    cases hrs
    have hmade : ∀ p ∈ rs, ∃ w, Completes (inside elementKey d) e w p.2 :=
      forall_mem_of_getElem? (Fields.length_eq_of_keys hkeys)
        fun i w p hw hp => ⟨w.2, hparts i w p hw hp⟩
    exact hmade p hp
  | object => cases he

theorem Completes.of_tuple {ts : List Ty} {rs : List Value}
    (h : Completes d (.tuple ts) v (.tuple rs)) {i : Nat} (ht : ts[i]? = some t)
    (hr : rs[i]? = some r) : ∃ w, Completes (inside (toString i) d) t w r := by
  generalize hx : Value.tuple rs = x at h
  cases h with
  | @sensitive d t v r _ h => cases r <;> cases hx
  | null _ => cases hx
  | unknown _ _ => cases hx
  | primitive hne h =>
    rcases convertPrimitive_cases h with ⟨heq, _⟩ | ⟨heq, _⟩ | ⟨heq, _⟩ | ⟨heq, _⟩ <;> cases heq
  | @tuple _ _ _ items rs' _ hts hlength hparts =>
    cases hx
    obtain ⟨hlt, -⟩ := List.getElem?_eq_some_iff.1 hr
    have hi : items[i]? = some items[i] := List.getElem?_eq_getElem (hlength ▸ hlt)
    exact ⟨_, hparts i _ t r hi ht hr⟩

theorem Completes.of_object {attrs : Fields Ty} {optional : Names} {fields : Fields Value}
    (h : Completes d (.object attrs optional) v (.object fields)) :
    ∃ entries, v.entries? = some entries ∧ Fields.keys fields = Fields.keys attrs ∧
      ∀ name t r, Fields.get? name attrs = some t → Fields.get? name fields = some r →
        (∀ a, attrOr d name entries = some a → Completes (inside name d) t a r) ∧
        (attrOr d name entries = none → r = .null t) := by
  generalize hx : Value.object fields = x at h
  cases h with
  | @sensitive d t v r _ h => cases r <;> cases hx
  | null _ => cases hx
  | unknown _ _ => cases hx
  | primitive hne h =>
    rcases convertPrimitive_cases h with ⟨heq, _⟩ | ⟨heq, _⟩ | ⟨heq, _⟩ | ⟨heq, _⟩ <;> cases heq
  | object hentries hkeys hparts hnull =>
    cases hx
    exact ⟨_, hentries, hkeys, fun name t r ht hr =>
      ⟨fun a => hparts name t r a ht hr, fun ha => (hnull name t r ht hr ha).2⟩⟩

end Defaults

namespace Constraint

open Defaults

/-- A part of the expression of a constraint, and a part of the value that it describes. -/
inductive Describes : Expr → Value → Expr → Value → Prop
  | whole {e : Expr} {r : Value} : Describes e r e r
  | marked {e p : Expr} {r x : Value} : Describes e r p x → Describes e (.sensitive r) p x
  | parens {span : Span} {e p : Expr} {r x : Value} : Describes e r p x →
      Describes (.parens span e) r p x
  | element {span : Span} {name : String} {make : Ty → Ty} {e p : Expr} {expand : Bool}
      {r a x : Value} {items : List Value} : collection? name = some make →
      r.items? = some items → a ∈ items → Describes e a p x →
      Describes (.call span name [e] expand) r p x
  | entry {span : Span} {name key : String} {make : Ty → Ty} {e p : Expr} {expand : Bool}
      {r a x : Value} {entries : Fields Value} : collection? name = some make →
      r.entries? = some entries → (key, a) ∈ entries → Describes e a p x →
      Describes (.call span name [e] expand) r p x
  | position {span inner : Span} {es : List Expr} {expand : Bool} {items : List Value} {i : Nat}
      {e p : Expr} {a x : Value} : es[i]? = some e → items[i]? = some a → Describes e a p x →
      Describes (.call span "tuple" [.tuple inner es] expand) (.tuple items) p x
  | attr {span inner : Span} {items : List (ObjectKey × Expr)} {expand : Bool}
      {fields : Fields Value} {name : String} {value p : Expr} {a x : Value} :
      declared? name items = some value → Fields.get? name fields = some a →
      Describes (attrType value) a p x →
      Describes (.call span "object" [.object inner items] expand) (.object fields) p x

variable {library : Library} {e p : Expr} {t : Ty} {d : Option Defaults} {v r x : Value}

/-- Where the constraint describes a part of the result, that part is filled in and converted to
what the part of the expression stands for. -/
theorem Describes.completes (h : Describes e r p x) (he : Denotes e t) (ht : t.Static)
    (hd : Covers library e d) (hr : Completes d t v r) :
    ∃ u f w, Denotes p u ∧ u.Static ∧ Covers library p f ∧ Completes f u w x := by
  induction h generalizing t d v with
  | whole => exact ⟨t, d, v, he, ht, hd, hr⟩
  | marked _ ih =>
    obtain ⟨w, hw⟩ := hr.of_sensitive
    exact ih he ht hd hw
  | parens _ ih => exact ih he.of_parens ht hd.of_parens hr
  | element hmake hitems ha _ ih =>
    obtain ⟨u, rfl, hu⟩ := he.of_collection hmake
    have helem := elementType?_of_collection? (t := u) hmake
    obtain ⟨w, hw⟩ := hr.of_items helem hitems ha
    have hin := Ty.Inside.of_elementType? helem
    exact ih hu (ht.part hin.mem_parts) (hd.of_collection hmake) hw
  | entry hmake hentries ha _ ih =>
    obtain ⟨u, rfl, hu⟩ := he.of_collection hmake
    have helem := elementType?_of_collection? (t := u) hmake
    obtain ⟨w, hw⟩ := hr.of_entries helem hentries ha
    have hin := Ty.Inside.of_elementType? helem
    exact ih hu (ht.part hin.mem_parts) (hd.of_collection hmake) hw
  | @position _ _ es _ items i e p a x hi ha _ ih =>
    obtain ⟨ts, rfl, hlength, hts⟩ := he.of_tuple
    obtain ⟨hlt, -⟩ := List.getElem?_eq_some_iff.1 hi
    have hu : ts[i]? = some ts[i] := List.getElem?_eq_getElem (hlength ▸ hlt)
    obtain ⟨w, hw⟩ := hr.of_tuple hu ha
    have hin : (Ty.tuple ts).Inside (toString i) ts[i] := .tuple hu
    exact ih (hts i e _ hi hu) (ht.part hin.mem_parts) (hd.of_tuple i e hi) hw
  | @attr _ _ items _ fields name value p a x hvalue ha _ ih =>
    obtain ⟨attrs, optional, rfl, hnames, hattrs⟩ := he.of_object
    obtain ⟨entries, -, hkeys, hparts⟩ := hr.of_object
    obtain ⟨u, hu⟩ := Fields.exists_get?_of_mem_keys (hkeys ▸ Fields.mem_keys_of_get? ha)
    obtain ⟨hsome, hnone⟩ := hparts name u a hu ha
    have hstatic : u.Static := ht.part (Ty.mem_parts_of_attr? hu)
    have hdenotes := hattrs name value u hvalue hu
    have hcovers := hd.of_object.1 name value hvalue
    cases hown : attrOr d name entries with
    | some w => exact ih hdenotes hstatic hcovers (hsome w hown)
    | none =>
      obtain rfl := hnone hown
      exact ih hdenotes hstatic hcovers (.null (u := u) hstatic.ne_dynamic)

/-- An attribute with a default that is not null is not null. -/
theorem Covers.isNull_eq_false {span inner : Span} {items : List (ObjectKey × Expr)}
    {expand : Bool} {fields : Fields Value} {name : String} {dflt : Expr}
    (hd : Covers library (.call span "object" [.object inner items] expand) d)
    (ht : Denotes (.call span "object" [.object inner items] expand) t)
    (h : Completes d t v (.object fields)) (hdflt : default? name items = some dflt)
    (hnull : (Eval.constant library dflt).result.isNull = false) :
    ∃ a, Fields.get? name fields = some a ∧ a.isNull = false := by
  obtain ⟨attrs, optional, rfl, hnames, hattrs⟩ := ht.of_object
  obtain ⟨entries, -, hkeys, hparts⟩ := h.of_object
  obtain ⟨value, hvalue⟩ := exists_declared?_of_default? hdflt
  have hsome : (Fields.get? name attrs).isSome = true := by
    rw [hnames, hvalue]
    rfl
  obtain ⟨u, hu⟩ := Option.isSome_iff_exists.1 hsome
  obtain ⟨a, ha⟩ := Fields.exists_get?_of_mem_keys (hkeys.symm ▸ Fields.mem_keys_of_get? hu)
  obtain ⟨x, hx, hxnull⟩ := hd.of_object.2 name dflt hdflt hnull
  obtain ⟨w, hw, hor⟩ := attrOr_of_ofAttr hx entries
  refine ⟨a, ha, ?_⟩
  rw [((hparts name u a hu ha).1 w hw).isNull_eq]
  rcases hor with rfl | hwnull
  · exact hxnull
  · exact hwnull

/-- What a constraint without errors and without `dynamic` gives belongs together: the type is what
the expression stands for, the defaults suit it, and they are all there. -/
theorem of_ofExpr_clean (hclean : (ofExpr library e).diags.hasErrors = false)
    (hknown : (ofExpr library e).result.ty.hasDynamic = false) :
    Denotes e (ofExpr library e).result.ty ∧ (ofExpr library e).result.ty.Static ∧
      Suits (ofExpr library e).result.defaults (ofExpr library e).result.ty ∧
      Covers library e (ofExpr library e).result.defaults := by
  simp only [ofExpr, Report.bind_eq, Report.pure_eq, List.append_nil,
    Diagnostics.hasErrors_append, Bool.or_eq_false_iff] at hclean hknown ⊢
  have hdenotes := denotes_typeOf e hclean.1
  have hstatic : (typeOf e).result.Static := ⟨hknown, hdenotes.ordered⟩
  exact ⟨hdenotes, hstatic, suits_defaultsOf library e _ hstatic,
    covers_of_defaultsOf hdenotes hclean.2 fun _ => id⟩

/-- A value that is filled in and converted to the type of a constraint becomes what its own parts
become, with defaults for attributes that it has not or has as null only, and nowhere that the
constraint describes an object is an attribute null that has a default which is not null. Of two
declarations of an attribute the last one counts, and of two defaults the last one. -/
theorem default_filled_everywhere (hclean : (ofExpr library e).diags.hasErrors = false)
    (hknown : (ofExpr library e).result.ty.hasDynamic = false) (hv : v.MarkedOnce)
    (h : convert (fill (ofExpr library e).result.defaults v) (ofExpr library e).result.ty =
      .ok r) :
    Completes (ofExpr library e).result.defaults (ofExpr library e).result.ty v r ∧
    ∀ (span inner : Span) (items : List (ObjectKey × Expr)) (expand : Bool)
      (fields : Fields Value) (name : String) (dflt : Expr),
      Describes e r (.call span "object" [.object inner items] expand) (.object fields) →
      default? name items = some dflt →
      (Eval.constant library dflt).result.isNull = false →
      ∃ a, Fields.get? name fields = some a ∧ a.isNull = false := by
  obtain ⟨hdenotes, hstatic, hsuits, hcovers⟩ := of_ofExpr_clean hclean hknown
  have hr := completes_of_convert hstatic hsuits hv h
  refine ⟨hr, fun span inner items expand fields name dflt hdescribes hdflt hnull => ?_⟩
  obtain ⟨u, f, w, hu, -, hf, hx⟩ := hdescribes.completes hdenotes hstatic hcovers hr
  exact hf.isNull_eq_false hu hx hdflt hnull

/-- The attribute of a default is filled in as well, and the name that is there stays. -/
theorem default_filled_nested :
    let here : Span := default
    let word (s : String) : Expr := .traversal here s []
    let text (s : String) : Expr := .literal here (.string s)
    let optional (args : List Expr) : Expr := .call here "optional" args false
    let object (items : List (ObjectKey × Expr)) : Expr :=
      .call here "object" [.object here items] false
    let inner : List (ObjectKey × Expr) :=
      [(.name here "zone", optional [word "string", text "a"])]
    let outer : List (ObjectKey × Expr) :=
      [(.name here "name", optional [word "string", text "x"]),
        (.name here "place", optional [object inner, .object here []])]
    let library : Library := fun _ _ => none
    let filled : Fields Value :=
      [("name", .string "own"), ("place", .object [("zone", .string "a")])]
    Completes (ofExpr library (object outer)).result.defaults
        (ofExpr library (object outer)).result.ty (.object [("name", .string "own")])
        (.object filled) ∧
      Describes (object outer) (.object filled) (object inner)
        (.object [("zone", .string "a")]) ∧
      ∃ a, Fields.get? "zone" [("zone", Value.string "a")] = some a ∧ a.isNull = false := by
  intro here word text optional object inner outer library filled
  have hvalue : declared? "place" outer = some (optional [object inner, .object here []]) := rfl
  have hdescribes : Describes (object outer) (.object filled) (object inner)
      (.object [("zone", .string "a")]) := .attr hvalue rfl .whole
  have hname : (Value.object [("name", .string "own")]).MarkedOnce := by
    refine .object fun p hp => ?_
    rw [List.mem_singleton.1 hp]
    exact .string
  have h := @default_filled_everywhere library (object outer) (.object [("name", .string "own")])
    (.object filled) (by rfl) (by rfl) hname (by rfl)
  exact ⟨h.1, hdescribes, h.2 _ _ _ _ _ "zone" (text "a") hdescribes rfl rfl⟩

end Constraint

end StaticConfig

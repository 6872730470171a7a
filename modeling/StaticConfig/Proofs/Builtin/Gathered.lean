import StaticConfig.Proofs.Builtin.Arguments
import StaticConfig.Proofs.Builtin.Call
import StaticConfig.Proofs.Comparison.Sets
import StaticConfig.Proofs.Conversion.Markers

/-!
What the functions that collect elements, `concat`, `flatten` and `merge`, do with them. None is
lost, added or moved. They stay as they are unless their types have one in common: then all of
them are converted to this type, which changes only those that do not have it yet.
-/
namespace StaticConfig

open Value Builtin Builtin.Collections StaticConfig.Except

namespace Value

/-- The value as an element of a collection of the type. -/
structure Adapted (t : Ty) (v w : Value) : Prop where
  converts : v.convert t = .ok w
  null : w.isNull = v.isNull
  own : v.ty = t → t.Definite → v.WellTyped → w = v

theorem adapted_of_convert {t : Ty} {v w : Value} (hbare : v.bare = v)
    (h : v.convert t = .ok w) : Adapted t v w where
  converts := h
  null := (converts_of_convert v h).isNull_eq
  own hty ht hwell := by
    subst hty
    exact Except.ok.inj (h.symm.trans (convert_self hbare hwell ht))

/-- The types of the values have this one in common, and each of the values converts to it. -/
def Unites (vs : List Value) (t : Ty) (ws : List Value) : Prop :=
  Ty.unify (types vs) = some t ∧ List.Forall₂ (fun v w => v.convert t = .ok w) vs ws

theorem Unites.adapted {vs ws : List Value} {t : Ty} (h : Unites vs t ws)
    (hbare : ∀ v ∈ vs, v.bare = v) : List.Forall₂ (Adapted t) vs ws := by
  obtain ⟨-, h⟩ := h
  induction h with
  | nil => exact .nil
  | cons hvw _ ih =>
    obtain ⟨hv, hvs⟩ := List.forall_mem_cons.1 hbare
    exact .cons (adapted_of_convert hv hvw) (ih hvs)

/-- The collected elements, apart or united in one type. -/
inductive Gathered (vs : List Value) : Value → Prop
  | apart : (vs ≠ [] → ∀ t ws, ¬Unites vs t ws) → Gathered vs (.tuple vs)
  | united {t : Ty} {ws : List Value} : vs ≠ [] → Ty.unify (types vs) = some t →
      List.Forall₂ (Adapted t) vs ws → Gathered vs (.list t ws)

theorem Gathered.isMarked {vs : List Value} {v : Value} (h : Gathered vs v) :
    v.isMarked = false := by
  cases h <;> rfl

theorem gathered_listOrTuple {vs : List Value} (hbare : ∀ v ∈ vs, v.bare = v) :
    Gathered vs (listOrTuple vs) := by
  unfold listOrTuple
  split
  · next hempty =>
    obtain rfl := List.isEmpty_iff.1 hempty
    exact .apart fun hne => absurd rfl hne
  next hempty =>
  have hne : vs ≠ [] := fun hnil => hempty (List.isEmpty_iff.2 hnil)
  split
  · next t ht =>
    split
    · next ws hws =>
      have hunites : Unites vs t ws := ⟨ht, convertedAll_eq_some_iff.1 hws⟩
      exact .united hne ht (hunites.adapted hbare)
    · next hnone =>
      refine .apart fun _ u ws hunites => ?_
      obtain rfl := Option.some.inj (ht.symm.trans hunites.1)
      cases hnone.symm.trans (convertedAll_eq_some_iff.2 hunites.2)
  · next hnone =>
    refine .apart fun _ u ws hunites => ?_
    cases hnone.symm.trans hunites.1

/-- The collected entries, apart or, where all come from maps, united in one type. -/
inductive GatheredEntries (maps : Prop) (entries : Fields Value) : Value → Prop
  | apart : (maps → entries ≠ [] → ∀ t ws, ¬Unites entries.values t ws) →
      GatheredEntries maps entries (.object entries)
  | united {t : Ty} {es : Fields Value} : maps → entries ≠ [] →
      Ty.unify (types entries.values) = some t → Fields.Related (Adapted t) entries es →
        GatheredEntries maps entries (.map t es)

theorem GatheredEntries.isMarked {maps : Prop} {entries : Fields Value} {v : Value}
    (h : GatheredEntries maps entries v) : v.isMarked = false := by
  cases h <;> rfl

/-- Values put back to their names. -/
theorem related_zip {R : Value → Value → Prop} {entries : Fields Value} {ws : List Value}
    (h : List.Forall₂ R entries.values ws) : Fields.Related R entries (entries.keys.zip ws) := by
  induction entries generalizing ws with
  | nil => exact .nil
  | cons e rest ih =>
    cases h with
    | cons hvw hrest => exact .cons hvw (ih hrest)

theorem mapOf?_eq_some_iff {entries : Fields Value} {v : Value} : mapOf? entries = some v ↔
    ∃ t ws, Unites entries.values t ws ∧ v = .map t (entries.keys.zip ws) := by
  simp only [mapOf?, Option.bind_eq_bind, Option.bind_eq_some_iff, convertedAll_eq_some_iff,
    Option.some.injEq, Unites]
  constructor
  · rintro ⟨t, ht, ws, hws, rfl⟩
    exact ⟨t, ws, ⟨ht, hws⟩, rfl⟩
  · rintro ⟨t, ws, ⟨ht, hws⟩, rfl⟩
    exact ⟨t, ht, ws, hws, rfl⟩

theorem gatheredEntries_mapOf? {entries : Fields Value} (hbare : ∀ p ∈ entries, p.2.bare = p.2)
    (maps : Bool) : GatheredEntries (maps = true) entries
      (if maps && !entries.isEmpty then (mapOf? entries).getD (.object entries)
        else .object entries) := by
  have hvalues : ∀ v ∈ entries.values, v.bare = v := List.forall_mem_map.2 hbare
  split
  · next h =>
    obtain ⟨hmaps, hempty⟩ := Bool.and_eq_true_iff.1 h
    have hne : entries ≠ [] := by
      rintro rfl
      cases hempty
    cases hmap : mapOf? entries with
    | some v =>
      obtain ⟨t, ws, hunites, rfl⟩ := mapOf?_eq_some_iff.1 hmap
      exact .united hmaps hne hunites.1 (related_zip (hunites.adapted hvalues))
    | none =>
      refine .apart fun _ _ t ws hunites => ?_
      cases hmap.symm.trans (mapOf?_eq_some_iff.2 ⟨t, ws, hunites, rfl⟩)
  · next h =>
    refine .apart fun hmaps hne _ _ _ => h ?_
    rw [hmaps, Bool.true_and, List.isEmpty_eq_false_iff.2 hne]
    rfl

end Value

namespace Builtin.Collections

/-! Sequences put one after the other. -/

theorem of_joined {index : Nat} {vs all : List Value} (h : joined index vs = .ok all) :
    ∃ itemss, List.Forall₂ (fun v items => v.items? = some items) vs itemss ∧
      all = itemss.flatten := by
  induction vs generalizing index all with
  | nil =>
    cases h
    exact ⟨[], .nil, rfl⟩
  | cons v vs ih =>
    rw [joined] at h
    split at h
    · next items hitems =>
      obtain ⟨rest, hrest, h⟩ := bind_eq_ok.1 h
      cases h
      obtain ⟨itemss, hitemss, rfl⟩ := ih hrest
      exact ⟨items :: itemss, .cons (items?_of_asSequence hitems) hitemss, rfl⟩
    · cases h

theorem bare_of_mem_flatten {vs : List Value} {itemss : List (List Value)}
    (h : List.Forall₂ (fun v items => v.bare.items? = some items) vs itemss) :
    ∀ x ∈ itemss.flatten, x.bare = x := by
  induction h with
  | nil => exact nofun
  | cons hitems _ ih =>
    rw [List.flatten_cons]
    exact List.forall_mem_append.2 ⟨bare_of_mem_items? hitems, ih⟩

/-! Sequences in sequences. -/

/-- The leaves of the values in order: those that are no sequences, and the leaves of those that
are. -/
inductive Flattens : List Value → List Value → Prop
  | nil : Flattens [] []
  | leaf {v : Value} {vs leaves : List Value} : v.items? = none → Flattens vs leaves →
      Flattens (v :: vs) (v :: leaves)
  | sequence {v : Value} {items vs inner leaves : List Value} : v.items? = some items →
      Flattens items inner → Flattens vs leaves → Flattens (v :: vs) (inner ++ leaves)

theorem Flattens.append {us vs ls ms : List Value} (hu : Flattens us ls) (hv : Flattens vs ms) :
    Flattens (us ++ vs) (ls ++ ms) := by
  induction hu with
  | nil => exact hv
  | leaf hleaf _ ih => exact .leaf hleaf ih
  | sequence hitems hinner _ _ ih =>
    rw [List.append_assoc]
    exact .sequence hitems hinner ih

theorem Flattens.bare {vs leaves : List Value} (h : Flattens vs leaves)
    (hvs : ∀ v ∈ vs, v.bare = v) : ∀ l ∈ leaves, l.bare = l := by
  induction h with
  | nil => exact hvs
  | leaf _ _ ih =>
    obtain ⟨hv, hvs⟩ := List.forall_mem_cons.1 hvs
    exact List.forall_mem_cons.2 ⟨hv, ih hvs⟩
  | sequence hitems _ _ ihinner ih =>
    obtain ⟨hv, hvs⟩ := List.forall_mem_cons.1 hvs
    have hall := bare_of_mem_items? ((congrArg items? hv).trans hitems)
    exact List.forall_mem_append.2 ⟨ihinner hall, ih hvs⟩

mutual

theorem flattens_of_leaves : ∀ {v : Value} {ls : List Value}, leaves v = .ok ls →
    Flattens [v] ls
  | .list _ _, ls, h => List.append_nil ls ▸ .sequence rfl (flattens_of_leavesOfAll h) .nil
  | .set _ _, ls, h => List.append_nil ls ▸ .sequence rfl (flattens_of_leavesOfAll h) .nil
  | .tuple _, ls, h => List.append_nil ls ▸ .sequence rfl (flattens_of_leavesOfAll h) .nil
  | .sensitive _, _, h => by cases h
  | .null _, _, h | .unknown _, _, h | .bool _, _, h | .number _, _, h | .string _, _, h
  | .map _ _, _, h | .object _, _, h => by
    cases h
    exact .leaf rfl .nil

theorem flattens_of_leavesOfAll : ∀ {vs ls : List Value}, leavesOfAll vs = .ok ls →
    Flattens vs ls
  | [], _, h => by
    cases h
    exact .nil
  | v :: vs, _, h => by
    obtain ⟨first, hfirst, h⟩ := bind_eq_ok.1 h
    obtain ⟨rest, hrest, h⟩ := bind_eq_ok.1 h
    cases h
    exact (flattens_of_leaves hfirst).append (flattens_of_leavesOfAll hrest)

end

/-! Mappings put on top of each other. -/

/-- What the name stands for in the last of the mappings that has it. -/
def lastEntry (name : String) (vs : List Value) : Option Value :=
  vs.reverse.findSome? fun v => v.entries?.bind (Fields.get? name)

theorem lastEntry_cons (name : String) (v : Value) (vs : List Value) :
    lastEntry name (v :: vs) = (lastEntry name vs).or (v.entries?.bind (Fields.get? name)) := by
  rw [lastEntry, List.reverse_cons, List.findSome?_append, lastEntry]
  simp

theorem get?_of_mergedInto {acc entries : Fields Value} {vs : List Value}
    (hvs : ∀ v ∈ vs, ∀ es, v.entries? = some es → Fields.Sorted es)
    (h : mergedInto acc vs = .ok entries) (name : String) :
    Fields.get? name entries = (lastEntry name vs).or (Fields.get? name acc) := by
  induction vs generalizing acc with
  | nil =>
    cases h
    rfl
  | cons v vs ih =>
    obtain ⟨hv, hvs⟩ := List.forall_mem_cons.1 hvs
    rw [lastEntry_cons, Option.or_assoc]
    rw [mergedInto] at h
    split at h
    · next hnull =>
      have hnone : v.entries? = none := by
        cases hes : v.entries? with
        | none => rfl
        | some es => cases (isNull_of_entries? hes).symm.trans hnull
      rw [hnone]
      exact ih hvs h
    · obtain ⟨es, hes, h⟩ := bind_eq_ok.1 h
      have hes := entries?_of_asMapping hes
      rw [ih hvs h, Fields.get?_insertAll (hv es hes), hes]
      rfl

theorem sorted_mergedInto {acc entries : Fields Value} {vs : List Value}
    (hacc : Fields.Sorted acc) (h : mergedInto acc vs = .ok entries) : Fields.Sorted entries := by
  induction vs generalizing acc with
  | nil =>
    cases h
    exact hacc
  | cons v vs ih =>
    rw [mergedInto] at h
    split at h
    · exact ih hacc h
    · obtain ⟨es, _, h⟩ := bind_eq_ok.1 h
      exact ih (Fields.sorted_insertAll hacc es) h

end Builtin.Collections

namespace Eval

variable {ambient : Library.Ambient} {pureOnly : Bool} {name : String} {f : Builtin}
  {args : List Value} {span : Span} {r : Value}

/-- A call with known arguments of a function that sees neither marks nor unknown values. -/
theorem run_of_callNamed (hf : Library.standard ambient span name = some f) (hplain : f.IsPlain)
    (hknown : allKnown args = true)
    (h : callNamed ⟨Library.standard ambient, pureOnly⟩ name args span = .ok r) :
    f.checkCount args.length = .ok () ∧
      ∃ v, f.run (args.map bare) = .ok v ∧ (v.isMarked = false → r.unmarked = v) := by
  obtain ⟨g, hg, hcall⟩ := callNamed_eq_ok h
  obtain rfl := Option.some.inj (hf.symm.trans hg)
  refine ⟨count_of_call hcall, ?_⟩
  obtain ⟨hmarked, -, hpure⟩ := hplain
  cases result_of_call hcall with
  | skipped himpure => cases hpure.symm.trans himpure
  | undetermined _ hunknown => cases hknown.symm.trans hunknown
  | direct hm => cases hmarked.symm.trans hm
  | @shielded v _ _ hrun =>
    rw [bareAll_eq_map] at hrun
    refine ⟨v, hrun, fun hv => ?_⟩
    cases anyMark args with
    | false => exact unmarked_of_isMarked_eq_false hv
    | true => cases v <;> first | rfl | cases hv

theorem gathered_of_concat (hknown : allKnown args = true)
    (h : callNamed ⟨Library.standard ambient, pureOnly⟩ "concat" args span = .ok r) :
    ∃ itemss, List.Forall₂ (fun a items => a.bare.items? = some items) args itemss ∧
      Gathered itemss.flatten r.unmarked := by
  obtain ⟨-, v, hrun, hv⟩ := run_of_callNamed rfl ⟨rfl, rfl, rfl⟩ hknown h
  obtain ⟨all, hall, hrun⟩ := bind_eq_ok.1 hrun
  cases hrun
  obtain ⟨itemss, hitemss, rfl⟩ := of_joined hall
  rw [List.forall₂_map_left_iff] at hitemss
  have hgathered := gathered_listOrTuple (bare_of_mem_flatten hitemss)
  exact ⟨itemss, hitemss, hv hgathered.isMarked ▸ hgathered⟩

theorem gathered_of_flatten (hknown : allKnown args = true)
    (h : callNamed ⟨Library.standard ambient, pureOnly⟩ "flatten" args span = .ok r) :
    ∃ a items leaves, args = [a] ∧ a.bare.items? = some items ∧ Flattens items leaves ∧
      Gathered leaves r.unmarked := by
  obtain ⟨hcount, v, hrun, hv⟩ := run_of_callNamed rfl ⟨rfl, rfl, rfl⟩ hknown h
  obtain ⟨hleast, hmost⟩ := of_checkCount hcount
  obtain ⟨a, rfl⟩ := List.length_eq_one_iff.1 (le_antisymm (hmost 1 rfl) hleast)
  obtain ⟨items, hitems, hrun⟩ := bind_eq_ok.1 hrun
  obtain ⟨leaves, hleaves, hrun⟩ := bind_eq_ok.1 hrun
  cases hrun
  have hitems := items?_of_asSequence hitems
  have hflattens := flattens_of_leavesOfAll hleaves
  have hgathered := gathered_listOrTuple (hflattens.bare (bare_of_mem_items? hitems))
  exact ⟨a, items, leaves, rfl, hitems, hflattens, hv hgathered.isMarked ▸ hgathered⟩

theorem gathered_of_merge (hknown : allKnown args = true)
    (hsorted : ∀ a ∈ args, ∀ entries, a.bare.entries? = some entries → entries.Sorted)
    (h : callNamed ⟨Library.standard ambient, pureOnly⟩ "merge" args span = .ok r) :
    ∃ entries, Fields.Sorted entries ∧
      (∀ name, Fields.get? name entries = lastEntry name (args.map bare)) ∧
      GatheredEntries (∀ a ∈ args, a.bare.isNull = true ∨ isMap a.bare = true) entries
        r.unmarked := by
  obtain ⟨-, v, hrun, hv⟩ := run_of_callNamed rfl ⟨rfl, rfl, rfl⟩ hknown h
  obtain ⟨entries, hentries, hrun⟩ := bind_eq_ok.1 hrun
  refine ⟨entries, sorted_mergedInto .nil hentries, fun name => ?_, ?_⟩
  · rw [get?_of_mergedInto (List.forall_mem_map.2 hsorted) hentries name]
    exact Option.or_none
  have hbare : ∀ p ∈ entries, p.2.bare = p.2 :=
    forall_mergedInto (P := fun v => v.bare = v) (List.forall_mem_nil _)
      (List.forall_mem_map.2 fun a _ _ hes => bare_of_mem_entries? hes) hentries
  have hmaps : ((args.map bare).all fun v => v.isNull || isMap v) = true ↔
      ∀ a ∈ args, a.bare.isNull = true ∨ isMap a.bare = true := by
    simp
  have hvalue : v = if ((args.map bare).all fun v => v.isNull || isMap v) && !entries.isEmpty
      then (mapOf? entries).getD (.object entries) else .object entries := by
    dsimp only at hrun
    split at hrun
    · next h => exact (Except.ok.inj hrun).symm.trans (if_pos h).symm
    · next h => exact (Except.ok.inj hrun).symm.trans (if_neg h).symm
  have hgathered := gatheredEntries_mapOf? hbare ((args.map bare).all fun v => v.isNull || isMap v)
  rw [← hvalue, propext hmaps] at hgathered
  exact hv hgathered.isMarked ▸ hgathered

/-- What `concat`, `flatten` and `merge` give of known arguments, marks aside. The first two put
all elements, or all leaves, in order, and the third puts all entries, of equal names the last. -/
theorem gathers_callNamed (hknown : allKnown args = true)
    (hsorted : ∀ a ∈ args, ∀ entries, a.bare.entries? = some entries → entries.Sorted) :
    let s : Setting := ⟨Library.standard ambient, pureOnly⟩
    (callNamed s "concat" args span = .ok r →
      ∃ itemss, List.Forall₂ (fun a items => a.bare.items? = some items) args itemss ∧
        Gathered itemss.flatten r.unmarked) ∧
    (callNamed s "flatten" args span = .ok r →
      ∃ a items leaves, args = [a] ∧ a.bare.items? = some items ∧ Flattens items leaves ∧
        Gathered leaves r.unmarked) ∧
    (callNamed s "merge" args span = .ok r →
      ∃ entries, Fields.Sorted entries ∧
        (∀ name, Fields.get? name entries = lastEntry name (args.map bare)) ∧
        GatheredEntries (∀ a ∈ args, a.bare.isNull = true ∨ isMap a.bare = true) entries
          r.unmarked) :=
  ⟨gathered_of_concat hknown, gathered_of_flatten hknown, gathered_of_merge hknown hsorted⟩

/-- The sequences `[1]` and `["a"]`. -/
def mixed : List Value := [.tuple [.ofNat 1], .tuple [.string "a"]]

theorem listOrTuple_mixed :
    listOrTuple [.ofNat 1, .string "a"] = .list .string [.string "1", .string "a"] := by
  have hunify : Ty.unify [.number, .string] = some .string :=
    Ty.unify_of_unified (.primitive (.pair nofun nofun nofun) (by decide))
  exact listOrTuple_eq_list nofun hunify rfl

theorem concat_mixed (s : Library.Ambient) :
    callNamed ⟨Library.standard s, false⟩ "concat" mixed default =
      .ok (.list .string [.string "1", .string "a"]) :=
  calc callNamed ⟨Library.standard s, false⟩ "concat" mixed default
    _ = .ok (listOrTuple [.ofNat 1, .string "a"]) := rfl
    _ = _ := by rw [listOrTuple_mixed]

theorem flatten_mixed (s : Library.Ambient) :
    callNamed ⟨Library.standard s, false⟩ "flatten" [.tuple mixed] default =
      .ok (.list .string [.string "1", .string "a"]) :=
  calc callNamed ⟨Library.standard s, false⟩ "flatten" [.tuple mixed] default
    _ = .ok (listOrTuple [.ofNat 1, .string "a"]) := rfl
    _ = _ := by rw [listOrTuple_mixed]

/-- A number and a text united in one list, by `concat` and by `flatten`, and objects put on top of
each other by `merge`. -/
theorem gathers_callNamed_mixed :
    allKnown mixed = true ∧
    (∃ itemss, List.Forall₂ (fun a items => a.bare.items? = some items) mixed itemss ∧
      Gathered itemss.flatten (.list .string [.string "1", .string "a"])) ∧
    (∃ a items leaves, [tuple mixed] = [a] ∧ a.bare.items? = some items ∧ Flattens items leaves ∧
      Gathered leaves (.list .string [.string "1", .string "a"])) ∧
    ∃ entries, Fields.Sorted entries ∧
      (∀ name, Fields.get? name entries =
        lastEntry name [.object [("x", .ofNat 1)], .object [("x", .string "a")]]) ∧
      GatheredEntries (∀ a ∈ [Value.object [("x", .ofNat 1)], .object [("x", .string "a")]],
        a.bare.isNull = true ∨ isMap a.bare = true) entries (.object [("x", .string "a")]) := by
  let ambient : Library.Ambient := ⟨"", fun _ => ""⟩
  have hmixed : ∀ a ∈ mixed, ∀ entries, a.bare.entries? = some entries → entries.Sorted :=
    List.forall_mem_cons.2 ⟨nofun, List.forall_mem_singleton.2 nofun⟩
  have hnested : ∀ a ∈ [tuple mixed], ∀ entries, a.bare.entries? = some entries →
      entries.Sorted := by
    rw [List.forall_mem_singleton]
    rintro _ ⟨⟩
  have hobjects : ∀ a ∈ [Value.object [("x", .ofNat 1)], .object [("x", .string "a")]],
      ∀ entries, a.bare.entries? = some entries → entries.Sorted := by
    rw [List.forall_mem_cons, List.forall_mem_singleton]
    constructor <;>
    · rintro _ ⟨⟩
      exact List.pairwise_singleton _ _
  have hmerge : callNamed ⟨Library.standard ambient, false⟩ "merge"
      [.object [("x", .ofNat 1)], .object [("x", .string "a")]] default =
        .ok (.object [("x", .string "a")]) := rfl
  refine ⟨rfl, ?_, ?_, ?_⟩
  · exact (gathers_callNamed rfl hmixed).1 (concat_mixed ambient)
  · exact (gathers_callNamed rfl hnested).2.1 (flatten_mixed ambient)
  · exact (gathers_callNamed rfl hobjects).2.2 hmerge

/-- A list has elements of one type, so the number becomes a text, which it does not equal. -/
theorem concat_converts_elements :
    callNamed ⟨Library.standard ⟨"", fun _ => ""⟩, false⟩ "concat" mixed default =
        .ok (.list .string [.string "1", .string "a"]) ∧
      equal? (.string "1") (.ofNat 1) = some false :=
  ⟨concat_mixed _, rfl⟩

end Eval

end StaticConfig

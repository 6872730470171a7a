import Mathlib.Data.List.Forall2
import StaticConfig.Proofs.Fields
import StaticConfig.Ty.Unify

/-!
The rules by which types are unified, each of which asks only which types there are. Unification
finds exactly what the rules give, so it is the same for types in another order or given several
times, and the type that it finds is a type to which all of them, and it too, unify.
-/
namespace StaticConfig.Ty

/-- There are different types, and none of them is `dynamic`. -/
structure Mixed (ts : List Ty) : Prop where
  known : dynamic ∉ ts
  differ : ∀ t, ∃ u ∈ ts, u ≠ t

/-- All the types are objects with the attributes of these names. -/
def ObjectsOf (names : List String) (ts : List Ty) : Prop :=
  ∀ t ∈ ts, t.isObject = true ∧ t.attrNames = names

/-- The types have the type in common. -/
inductive Unified : List Ty → Ty → Prop
  | none : Unified [] dynamic
  | dynamic {ts : List Ty} : dynamic ∈ ts → Unified ts dynamic
  | equal {ts : List Ty} {t : Ty} : t ∈ ts → t ≠ .dynamic → (∀ u ∈ ts, u = t) → Unified ts t
  | primitive {ts : List Ty} : Mixed ts → (∀ t ∈ ts, t.isPrimitive = true) → Unified ts string
  | sequence {ts : List Ty} {e : Ty} : Mixed ts → (∀ t ∈ ts, t.isSequence = true) →
    Unified (ts.flatMap parts) e → Unified ts (list e)
  | object {ts : List Ty} {attrs : List (String × Ty)} : Mixed ts →
    ObjectsOf (Fields.keys attrs) ts →
      (∀ a ∈ attrs, Unified (ts.filterMap (attr? a.1)) a.2) → Unified ts (plainObject attrs)
  | mapping {ts : List Ty} {e : Ty} : Mixed ts → (∀ t ∈ ts, t.isMapping = true) →
    (∀ names, ¬ObjectsOf names ts) → Unified (ts.flatMap parts) e → Unified ts (map e)

/-! What the cases of unification ask. -/

theorem isMapping_of_isObject {t : Ty} (h : t.isObject = true) : t.isMapping = true := by
  cases t <;> simp_all [isObject, isMapping]

/-- A type is of one class only. -/
theorem not_isPrimitive_of_isSequence {t : Ty} (h : t.isSequence = true) :
    t.isPrimitive = false := by
  cases t <;> simp_all [isPrimitive, isSequence]

theorem not_isPrimitive_of_isMapping {t : Ty} (h : t.isMapping = true) :
    t.isPrimitive = false := by
  cases t <;> simp_all [isPrimitive, isMapping]

theorem not_isSequence_of_isMapping {t : Ty} (h : t.isMapping = true) :
    t.isSequence = false := by
  cases t <;> simp_all [isSequence, isMapping]

theorem all_eq_false_of_forall {p q : Ty → Bool} (hpq : ∀ t, p t = true → q t = false) {t : Ty}
    {ts : List Ty} (h : ∀ u ∈ t :: ts, p u = true) : (t :: ts).all q = false := by
  have ht := hpq t (h t List.mem_cons_self)
  rw [List.all_cons, ht, Bool.false_and]

theorem mapM_named (f : String → Option Ty) {names : List String} {attrs : List (String × Ty)} :
    (names.mapM fun name => (f name).map fun t => (name, t)) = some attrs ↔
      Fields.keys attrs = names ∧ ∀ a ∈ attrs, f a.1 = some a.2 := by
  induction names generalizing attrs with
  | nil =>
    constructor
    · intro h
      cases h
      exact ⟨rfl, nofun⟩
    · intro h
      have hnil : attrs = [] := List.map_eq_nil_iff.1 h.1
      rw [hnil]
      rfl
  | cons name names ih =>
    rw [List.mapM_cons]
    constructor
    · intro h
      obtain ⟨_, hfirst, hrest⟩ := Option.bind_eq_some_iff.1 h
      obtain ⟨t, ht, rfl⟩ := Option.map_eq_some_iff.1 hfirst
      obtain ⟨rest, hmore, hattrs⟩ := Option.bind_eq_some_iff.1 hrest
      cases hattrs
      obtain ⟨hkeys, hall⟩ := ih.1 hmore
      exact ⟨congrArg (name :: ·) hkeys, List.forall_mem_cons.2 ⟨ht, hall⟩⟩
    · intro h
      obtain ⟨hkeys, hall⟩ := h
      cases attrs with
      | nil => cases hkeys
      | cons a rest =>
        obtain ⟨rfl, hrest⟩ := List.cons.inj hkeys
        obtain ⟨ha, hall⟩ := List.forall_mem_cons.1 hall
        have hmore := ih.2 ⟨hrest, hall⟩
        refine Option.bind_eq_some_iff.2 ⟨a, Option.map_eq_some_iff.2 ⟨a.2, ha, rfl⟩, ?_⟩
        exact Option.bind_eq_some_iff.2 ⟨rest, hmore, rfl⟩

section Cases

variable {first : Ty} {rest : List Ty}

theorem mixed_cons (hknown : (first :: rest).contains dynamic = false)
    (hdiffer : ((first :: rest).all fun t => t == first) = false) : Mixed (first :: rest) := by
  constructor
  · intro hmem
    rw [List.contains_iff_mem.2 hmem] at hknown
    cases hknown
  · intro t
    obtain ⟨u, hu, hne⟩ := List.all_eq_false.1 hdiffer
    have hne : u ≠ first := fun h => hne (beq_iff_eq.2 h)
    by_cases ht : first = t
    · exact ⟨u, hu, ht ▸ hne⟩
    · exact ⟨first, List.mem_cons_self, ht⟩

theorem Mixed.contains_eq_false (h : Mixed (first :: rest)) :
    (first :: rest).contains dynamic = false := by
  rw [Bool.eq_false_iff]
  intro hcontains
  exact h.known (List.contains_iff_mem.1 hcontains)

theorem Mixed.all_eq_false (h : Mixed (first :: rest)) :
    ((first :: rest).all fun t => t == first) = false := by
  obtain ⟨u, hu, hne⟩ := h.differ first
  exact List.all_eq_false.2 ⟨u, hu, fun hsame => hne (beq_iff_eq.1 hsame)⟩

theorem objectsOf_cons_iff : ((first :: rest).all isObject && (first :: rest).all fun t =>
    t.attrNames == first.attrNames) = true ↔ ObjectsOf first.attrNames (first :: rest) := by
  simp only [Bool.and_eq_true, List.all_eq_true, beq_iff_eq, ObjectsOf]
  exact ⟨fun h t ht => ⟨h.1 t ht, h.2 t ht⟩, fun h => ⟨fun t ht => (h t ht).1,
    fun t ht => (h t ht).2⟩⟩

theorem Mixed.ne_nil {ts : List Ty} (h : Mixed ts) : ts ≠ [] := by
  obtain ⟨u, hu, -⟩ := h.differ dynamic
  exact List.ne_nil_of_mem hu

end Cases

/-- What unification finds is given by the rules. -/
theorem unified_of_unify {ts : List Ty} {t : Ty} (h : unify ts = some t) : Unified ts t := by
  fun_induction unify ts generalizing t with
  | case1 =>
    cases h
    exact .none
  | case2 first rest all =>
    rename_i hdynamic
    cases h
    exact .dynamic (List.contains_iff_mem.1 hdynamic)
  | case3 first rest all =>
    rename_i hdynamic hequal
    cases h
    have hknown : dynamic ∉ first :: rest := fun hmem => hdynamic (List.contains_iff_mem.2 hmem)
    refine .equal List.mem_cons_self ?_ ?_
    · intro hfirst
      exact hknown (hfirst ▸ List.mem_cons_self)
    · intro u hu
      exact beq_iff_eq.1 (List.all_eq_true.1 hequal u hu)
  | case4 first rest all =>
    rename_i hdynamic hequal hprimitive
    cases h
    have hmixed := mixed_cons (Bool.eq_false_iff.2 hdynamic) (Bool.eq_false_iff.2 hequal)
    exact .primitive hmixed (List.all_eq_true.1 hprimitive)
  | case5 first rest all =>
    rename_i hdynamic hequal _ hsequence ih
    obtain ⟨e, he, rfl⟩ := Option.map_eq_some_iff.1 h
    have hmixed := mixed_cons (Bool.eq_false_iff.2 hdynamic) (Bool.eq_false_iff.2 hequal)
    exact .sequence hmixed (List.all_eq_true.1 hsequence) (ih he)
  | case6 first rest all =>
    rename_i hdynamic hequal _ _ hobjects ih
    obtain ⟨attrs, hattrs, rfl⟩ := Option.map_eq_some_iff.1 h
    have hmixed := mixed_cons (Bool.eq_false_iff.2 hdynamic) (Bool.eq_false_iff.2 hequal)
    obtain ⟨hkeys, hall⟩ := (mapM_named _).1 hattrs
    refine .object hmixed ?_ fun a ha => ih a.1 (hall a ha)
    rw [hkeys]
    exact objectsOf_cons_iff.1 hobjects
  | case7 first rest all =>
    rename_i hdynamic hequal _ _ hobjects hmapping ih
    obtain ⟨e, he, rfl⟩ := Option.map_eq_some_iff.1 h
    have hmixed := mixed_cons (Bool.eq_false_iff.2 hdynamic) (Bool.eq_false_iff.2 hequal)
    refine .mapping hmixed (List.all_eq_true.1 hmapping) ?_ (ih he)
    intro names hnames
    obtain ⟨-, rfl⟩ := hnames first List.mem_cons_self
    exact hobjects (objectsOf_cons_iff.2 hnames)
  | case8 => cases h

/-- What the rules give is what unification finds. -/
theorem unify_of_unified {ts : List Ty} {t : Ty} (h : Unified ts t) : unify ts = some t := by
  induction h with
  | none => rw [unify]
  | @dynamic ts hmem =>
    cases ts with
    | nil => cases hmem
    | cons first rest =>
      rw [unify]
      exact if_pos (List.contains_iff_mem.2 hmem)
  | @equal ts t hmem hknown hequal =>
    cases ts with
    | nil => cases hmem
    | cons first rest =>
      have hfirst : first = t := hequal first List.mem_cons_self
      subst hfirst
      have hdynamic : ¬(first :: rest).contains dynamic = true := by
        intro hcontains
        exact hknown (hequal _ (List.contains_iff_mem.1 hcontains)).symm
      have hall : ((first :: rest).all fun t => t == first) = true :=
        List.all_eq_true.2 fun u hu => beq_iff_eq.2 (hequal u hu)
      rw [unify]
      simp only [if_neg hdynamic, if_pos hall]
  | @primitive ts hmixed hprimitive =>
    cases ts with
    | nil => exact absurd rfl hmixed.ne_nil
    | cons first rest =>
      have hall := List.all_eq_true.2 hprimitive
      rw [unify]
      simp only [hmixed.contains_eq_false, hmixed.all_eq_false, hall, Bool.false_eq_true, if_true,
        if_false]
  | @sequence ts e hmixed hsequence _ ih =>
    cases ts with
    | nil => exact absurd rfl hmixed.ne_nil
    | cons first rest =>
      have hprimitive := all_eq_false_of_forall (fun _ => not_isPrimitive_of_isSequence) hsequence
      have hall := List.all_eq_true.2 hsequence
      rw [unify]
      simp only [hmixed.contains_eq_false, hmixed.all_eq_false, hprimitive, hall, ih,
        Bool.false_eq_true, if_true, if_false, Option.map_some]
  | @object ts attrs hmixed hobjects _ ih =>
    cases ts with
    | nil => exact absurd rfl hmixed.ne_nil
    | cons first rest =>
      have hmapping (t : Ty) (ht : t ∈ first :: rest) := isMapping_of_isObject (hobjects t ht).1
      have hprimitive := all_eq_false_of_forall (fun _ => not_isPrimitive_of_isMapping) hmapping
      have hsequence := all_eq_false_of_forall (fun _ => not_isSequence_of_isMapping) hmapping
      have hnames : first.attrNames = Fields.keys attrs :=
        (hobjects first List.mem_cons_self).2
      have hall := objectsOf_cons_iff.2 (hnames ▸ hobjects)
      have hattrs := (mapM_named fun name => unify ((first :: rest).filterMap (attr? name))).2
        ⟨hnames.symm, ih⟩
      rw [unify]
      simp only [hmixed.contains_eq_false, hmixed.all_eq_false, hprimitive, hsequence, hall,
        Bool.false_eq_true, if_true, if_false]
      exact Option.map_eq_some_iff.2 ⟨attrs, hattrs, rfl⟩
  | @mapping ts e hmixed hmapping hobjects _ ih =>
    cases ts with
    | nil => exact absurd rfl hmixed.ne_nil
    | cons first rest =>
      have hprimitive := all_eq_false_of_forall (fun _ => not_isPrimitive_of_isMapping) hmapping
      have hsequence := all_eq_false_of_forall (fun _ => not_isSequence_of_isMapping) hmapping
      have hother := Bool.eq_false_iff.2 fun h => hobjects _ (objectsOf_cons_iff.1 h)
      have hall := List.all_eq_true.2 hmapping
      rw [unify]
      simp only [hmixed.contains_eq_false, hmixed.all_eq_false, hprimitive, hsequence, hother, hall,
        ih, Bool.false_eq_true, if_true, if_false, Option.map_some]

theorem unify_eq_some_iff {ts : List Ty} {t : Ty} : unify ts = some t ↔ Unified ts t :=
  ⟨unified_of_unify, unify_of_unified⟩

/-! The rules ask only which types there are. -/

theorem Mixed.congr {ts us : List Ty} (h : Mixed ts) (hmem : ∀ t, t ∈ ts ↔ t ∈ us) :
    Mixed us := by
  refine ⟨fun hdynamic => h.known ((hmem _).2 hdynamic), fun t => ?_⟩
  obtain ⟨u, hu, hne⟩ := h.differ t
  exact ⟨u, (hmem u).1 hu, hne⟩

theorem forall_congr_mem {ts us : List Ty} {P : Ty → Prop} (hmem : ∀ t, t ∈ ts ↔ t ∈ us)
    (h : ∀ t ∈ ts, P t) : ∀ t ∈ us, P t :=
  fun t ht => h t ((hmem t).2 ht)

theorem Unified.congr {ts us : List Ty} {t : Ty} (h : Unified ts t)
    (hmem : ∀ t, t ∈ ts ↔ t ∈ us) : Unified us t := by
  have hparts {ts us : List Ty} (hmem : ∀ t, t ∈ ts ↔ t ∈ us) (t : Ty) :
      t ∈ ts.flatMap parts ↔ t ∈ us.flatMap parts := by
    simp only [List.mem_flatMap, hmem]
  induction h generalizing us with
  | none =>
    have hnil : us = [] := List.eq_nil_iff_forall_not_mem.2 fun t ht => nomatch (hmem t).2 ht
    rw [hnil]
    exact .none
  | dynamic hdynamic => exact .dynamic ((hmem _).1 hdynamic)
  | equal ht hknown hequal => exact .equal ((hmem _).1 ht) hknown (forall_congr_mem hmem hequal)
  | primitive hmixed hprimitive =>
    exact .primitive (hmixed.congr hmem) (forall_congr_mem hmem hprimitive)
  | sequence hmixed hsequence _ ih =>
    exact .sequence (hmixed.congr hmem) (forall_congr_mem hmem hsequence) (ih (hparts hmem))
  | object hmixed hobjects _ ih =>
    refine .object (hmixed.congr hmem) (forall_congr_mem hmem hobjects) fun a ha => ih a ha ?_
    intro t
    simp only [List.mem_filterMap, hmem]
  | mapping hmixed hmapping hobjects _ ih =>
    refine .mapping (hmixed.congr hmem) (forall_congr_mem hmem hmapping) ?_ (ih (hparts hmem))
    intro names hnames
    exact hobjects names (forall_congr_mem (fun t => (hmem t).symm) hnames)

theorem unify_congr {ts us : List Ty} (hmem : ∀ t, t ∈ ts ↔ t ∈ us) : unify ts = unify us := by
  refine Option.ext fun t => ?_
  rw [unify_eq_some_iff, unify_eq_some_iff]
  exact ⟨fun h => h.congr hmem, fun h => h.congr fun t => (hmem t).symm⟩

/-! The type found goes with the types it was found for. -/

theorem Mixed.concat {ts : List Ty} (h : Mixed ts) {t : Ty} (ht : t ≠ .dynamic) :
    Mixed (ts ++ [t]) := by
  constructor
  · intro hmem
    rcases List.mem_append.1 hmem with hmem | hmem
    · exact h.known hmem
    · exact ht (List.mem_singleton.1 hmem).symm
  · intro u
    obtain ⟨v, hv, hne⟩ := h.differ u
    exact ⟨v, List.mem_append_left _ hv, hne⟩

theorem forall_mem_concat {ts : List Ty} {t : Ty} {P : Ty → Prop} (h : ∀ u ∈ ts, P u) (ht : P t) :
    ∀ u ∈ ts ++ [t], P u :=
  List.forall_mem_append.2 ⟨h, List.forall_mem_singleton.2 ht⟩

theorem Unified.concat {ts : List Ty} {t : Ty} (h : Unified ts t) : Unified (ts ++ [t]) t := by
  induction h with
  | none => exact .dynamic List.mem_cons_self
  | dynamic hdynamic => exact .dynamic (List.mem_append_left _ hdynamic)
  | equal ht hknown hequal =>
    exact .equal (List.mem_append_left _ ht) hknown (forall_mem_concat hequal rfl)
  | primitive hmixed hprimitive =>
    exact .primitive (hmixed.concat nofun) (forall_mem_concat hprimitive rfl)
  | sequence hmixed hsequence _ ih =>
    refine .sequence (hmixed.concat nofun) (forall_mem_concat hsequence rfl) ?_
    rw [List.flatMap_append]
    exact ih
  | @object ts attrs hmixed hobjects hattrs ih =>
    refine .object (hmixed.concat nofun) (forall_mem_concat hobjects ⟨rfl, rfl⟩) fun a ha => ?_
    have hmem : a.1 ∈ Fields.keys attrs := List.mem_map_of_mem ha
    obtain ⟨t, ht⟩ := Fields.exists_get?_of_mem_keys hmem
    -- Of two attributes of one name both have the type that is found for the name.
    have hsame : t = a.2 := by
      have hfirst := unify_of_unified (hattrs (a.1, t) (Fields.mem_of_get? ht))
      have hsecond := unify_of_unified (hattrs a ha)
      exact Option.some.inj (hfirst.symm.trans hsecond)
    have hlast : [plainObject attrs].filterMap (attr? a.1) = [a.2] := by
      have hget : attr? a.1 (plainObject attrs) = some a.2 := by
        rw [← hsame]
        exact ht
      rw [List.filterMap_cons_some hget, List.filterMap_nil]
    rw [List.filterMap_append, hlast]
    exact ih a ha
  | mapping hmixed hmapping hobjects _ ih =>
    refine .mapping (hmixed.concat nofun) (forall_mem_concat hmapping rfl) ?_ ?_
    · intro names hnames
      exact hobjects names fun t ht => hnames t (List.mem_append_left _ ht)
    · rw [List.flatMap_append]
      exact ih

/-- Unification gives the same answer for the same types, in whatever order and however often they
are given, and the type that it finds changes nothing if it is given too. -/
theorem unify_join :
    (∀ ts us : List Ty, (∀ t, t ∈ ts ↔ t ∈ us) → unify ts = unify us) ∧
      ∀ (ts : List Ty) (t : Ty), unify ts = some t → unify (ts ++ [t]) = some t := by
  constructor
  · intro ts us hmem
    exact unify_congr hmem
  · intro ts t h
    exact unify_of_unified (unified_of_unify h).concat

/-- A list of texts and a pair of a number and a truth value. -/
theorem unify_join_lists :
    unify [list string, tuple [number, bool]] =
        unify [tuple [number, bool], list string, list string] ∧
      unify [tuple [number, bool], list string, list string] = some (list string) ∧
        unify ([tuple [number, bool], list string, list string] ++ [list string]) =
          some (list string) := by
  have hmem (t : Ty) : t ∈ [list string, tuple [number, bool]] ↔
      t ∈ [tuple [number, bool], list string, list string] := by
    simp only [List.mem_cons, List.not_mem_nil, or_false]
    tauto
  have hfound : unify [tuple [number, bool], list string, list string] = some (list string) := by
    rw [unify_eq_some_iff]
    have hmixed : Mixed [tuple [number, bool], list string, list string] := by
      refine ⟨by decide, fun t => ?_⟩
      by_cases ht : t = list string
      · exact ⟨_, List.mem_cons_self, by rw [ht]; decide⟩
      · exact ⟨list string, by simp, Ne.symm ht⟩
    refine .sequence hmixed (by decide) (.primitive ?_ (by decide))
    refine ⟨by decide, fun t => ?_⟩
    by_cases ht : t = bool
    · exact ⟨number, by decide, by rw [ht]; decide⟩
    · exact ⟨bool, by decide, Ne.symm ht⟩
  exact ⟨unify_join.1 _ _ hmem, hfound, unify_join.2 _ _ hfound⟩

end StaticConfig.Ty

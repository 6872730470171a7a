import StaticConfig.Proofs.Fields
import StaticConfig.Proofs.Scoping.Named
import StaticConfig.Scope.Basic

/-!
The names made for the subjects of references. What is added for a subject is found by the root
and the attributes that name it, whatever is added for other subjects.
-/
namespace StaticConfig

namespace Value

theorem steps_append (v : Value) (front back : List Step) :
    v.steps (front ++ back) = v.steps front >>= fun u => u.steps back := by
  induction front generalizing v with
  | nil => rfl
  | cons step front ih =>
    rw [List.cons_append, steps, steps]
    cases v.step step with
    | error e => rfl
    | ok u => exact ih u

theorem step_object {fields : Fields Value} {name : String} {v : Value}
    (h : Fields.get? name fields = some v) (span : Span) :
    (object fields).step (.attr span name) = .ok v := by
  simp [step, attr, unmarked, isMarked, bareAttr, h, Except.map, markIf]

theorem step_object_error {fields : Fields Value} {name : String}
    (h : Fields.get? name fields = none) (span : Span) :
    (object fields).step (.attr span name) = .error ⟨span, .noAttribute name⟩ := by
  simp [step, attr, unmarked, bareAttr, h, Except.map]

end Value

theorem Subject.Referable.type_ne {type name : String}
    (h : (Subject.resource .managed type name).Referable) : type ≠ "self" ∧ type ≠ "data" := by
  have hself : "self" ∈ Subject.reserved := by decide
  have hdata : "data" ∈ Subject.reserved := by decide
  exact ⟨fun heq => h (heq ▸ hself), fun heq => h (heq ▸ hdata)⟩

/-- The root of the subject is bound, and its attributes lead from there to the value. -/
def Env.Finds (env : Env) (s : Subject) (v : Value) : Prop :=
  ∃ u, env.lookup s.root = some u ∧ ∀ steps, Step.Spell steps s.attrs → u.steps steps = .ok v

/-- If the root of the subject is bound, its attributes lead nowhere from there. -/
def Env.Misses (env : Env) (s : Subject) : Prop :=
  ∀ u, env.lookup s.root = some u →
    ∀ steps, Step.Spell steps s.attrs → ∃ err, u.steps steps = .error err

namespace Roots

/-- The value that has been added for the subject. -/
def value? (r : Roots) (s : Subject) : Option Value :=
  match s.attrs with
  | [] => r.self
  | [name] => (r.roots.get? s.root).bind (Fields.get? name)
  | type :: name :: _ => (r.data.get? type).bind (Fields.get? name)

/-- The roots for the subjects, each of which has its value. -/
def ofSubjects (values : Subject → Value) (subjects : List Subject) : Roots :=
  subjects.foldl (fun r s => r.insert s (values s)) empty

theorem get?_under_self (root name : String) (v : Value) (fields : Fields (Fields Value)) :
    ((under root name v fields).get? root).bind (Fields.get? name) = some v := by
  rw [under, Fields.get?_insert_self]
  exact Fields.get?_insert_self name v _

theorem get?_under_of_ne {root name root' name' : String} (h : root = root' → name ≠ name')
    (v : Value) (fields : Fields (Fields Value)) :
    ((under root name v fields).get? root').bind (Fields.get? name') =
      (fields.get? root').bind (Fields.get? name') := by
  by_cases hroot : root = root'
  · subst hroot
    have hname : name' ≠ name := Ne.symm (h rfl)
    rw [under, Fields.get?_insert_self]
    change Fields.get? name' (Fields.insert name v _) = _
    rw [Fields.get?_insert_of_ne hname]
    cases Fields.get? root fields <;> rfl
  · rw [under, Fields.get?_insert_of_ne (Ne.symm hroot)]

theorem value?_insert_self (r : Roots) (s : Subject) (v : Value) :
    (r.insert s v).value? s = some v := by
  cases s with
  | self => rfl
  | resource mode type name =>
    cases mode with
    | managed => exact get?_under_self type name v r.roots
    | data => exact get?_under_self type name v r.data
  | _ => exact get?_under_self _ _ v r.roots

/-- Adding a value changes nothing in another place. -/
theorem value?_insert_of_ne (r : Roots) {s t : Subject} (v : Value)
    (h : s.root = t.root → s.attrs ≠ t.attrs) : (r.insert s v).value? t = r.value? t := by
  have hroots {name : String} (hs : s.attrs = [name])
      (hinsert : r.insert s v = r.add s.root name v) : (r.insert s v).value? t = r.value? t := by
    rw [hinsert]
    unfold value?
    split
    · rfl
    · rename_i other hother
      refine get?_under_of_ne (fun hroot hname => ?_) v r.roots
      rw [hs, hother, hname] at h
      exact h hroot rfl
    · rfl
  cases s with
  | self =>
    unfold value?
    split
    · rename_i ht
      refine absurd ht.symm (h ?_)
      cases t with
      | resource mode type name => cases mode <;> cases ht
      | self => rfl
      | _ => cases ht
    · rfl
    · rfl
  | resource mode type name =>
    cases mode with
    | managed => exact hroots rfl rfl
    | data =>
      unfold value?
      split
      · rfl
      · rfl
      · rename_i type' name' rest ht
        refine get?_under_of_ne (fun htype hname => ?_) v r.data
        cases t with
        | resource mode _ _ =>
          cases mode with
          | managed => cases ht
          | data =>
            cases ht
            exact h rfl (by rw [Subject.attrs, htype, hname]; rfl)
        | _ => cases ht
  | _ => exact hroots rfl rfl

theorem value?_foldl {values : Subject → Value} {subjects : List Subject} {s : Subject}
    (hsubjects : ∀ t ∈ subjects, t.Referable) (hs : s.Referable) :
    ∀ r : Roots, s ∈ subjects ∨ r.value? s = some (values s) →
      (subjects.foldl (fun r t => r.insert t (values t)) r).value? s = some (values s) := by
  induction subjects with
  | nil => exact fun r h => h.resolve_left List.not_mem_nil
  | cons t subjects ih =>
    intro r h
    obtain ⟨ht, hrest⟩ := List.forall_mem_cons.1 hsubjects
    refine ih hrest _ ?_
    by_cases hst : t = s
    · subst hst
      exact .inr (value?_insert_self r t (values t))
    · have hplace : t.root = s.root → t.attrs ≠ s.attrs := fun hroot hattrs =>
        hst (Subject.eq_of_place ht hs hroot hattrs)
      rw [value?_insert_of_ne r (values t) hplace]
      exact h.imp_left fun hmem => (List.mem_cons.1 hmem).resolve_left (Ne.symm hst)

theorem value?_ofSubjects {values : Subject → Value} {subjects : List Subject}
    (hsubjects : ∀ t ∈ subjects, t.Referable) {s : Subject} (hs : s ∈ subjects) :
    (ofSubjects values subjects).value? s = some (values s) :=
  value?_foldl hsubjects (hsubjects s hs) empty (.inl hs)

/-! The environment made of the roots. -/

theorem lookup_env_of_ne (r : Roots) {root : String} (hself : root ≠ "self")
    (hdata : root ≠ "data") :
    r.env.lookup root = (r.roots.get? root).map Value.object := by
  have hvars : Fields.get? root (if r.data.isEmpty then r.roots.mapValues Value.object
      else (r.roots.mapValues Value.object).insert "data" (.object (r.data.mapValues .object))) =
      (r.roots.get? root).map Value.object := by
    split
    · exact Fields.get?_mapValues _ _ _
    · rw [Fields.get?_insert_of_ne hdata]
      exact Fields.get?_mapValues _ _ _
  rw [Fields.lookup_eq_get?, env]
  cases r.self with
  | none => exact hvars
  | some v => exact (Fields.get?_insert_of_ne hself v _).trans hvars

theorem lookup_env_data (r : Roots) (h : r.data ≠ []) :
    r.env.lookup "data" = some (.object (r.data.mapValues Value.object)) := by
  have hdata : r.data.isEmpty = false := by simpa using h
  have hne : "data" ≠ "self" := by decide
  simp only [Fields.lookup_eq_get?, env, hdata]
  cases r.self with
  | none => exact Fields.get?_insert_self _ _ _
  | some v =>
    refine (Fields.get?_insert_of_ne hne v _).trans ?_
    exact Fields.get?_insert_self _ _ _

theorem lookup_env_self (r : Roots) {v : Value} (h : r.self = some v) :
    r.env.lookup "self" = some v := by
  simp only [Fields.lookup_eq_get?, env, h]
  exact Fields.get?_insert_self _ _ _

/-- A subject with one attribute, whose root is its own. -/
theorem finds_of_attr (r : Roots) {s : Subject} {name : String} {v : Value}
    (hattrs : s.attrs = [name]) (hself : s.root ≠ "self") (hdata : s.root ≠ "data")
    (h : r.value? s = some v) : r.env.Finds s v := by
  simp only [value?, hattrs] at h
  obtain ⟨fields, hfields, hv⟩ := Option.bind_eq_some_iff.1 h
  refine ⟨.object fields, ?_, fun steps hsteps => ?_⟩
  · rw [lookup_env_of_ne r hself hdata, hfields]
    rfl
  · rw [hattrs] at hsteps
    obtain ⟨span, rfl⟩ : ∃ span, steps = [.attr span name] := by
      cases hsteps with
      | cons hstep hrest =>
        cases hrest
        obtain ⟨span, rfl⟩ := hstep
        exact ⟨span, rfl⟩
    rw [Value.steps, Value.step_object hv]
    rfl

/-- What has been added for a subject is found in the environment. -/
theorem finds_of_value? (r : Roots) {s : Subject} (hs : s.Referable) {v : Value}
    (h : r.value? s = some v) : r.env.Finds s v := by
  cases s with
  | self =>
    refine ⟨v, lookup_env_self r h, fun steps hsteps => ?_⟩
    cases hsteps
    rfl
  | output name => exact hs.elim
  | resource mode type name =>
    cases mode with
    | managed =>
      obtain ⟨hself, hdata⟩ := hs.type_ne
      exact finds_of_attr r rfl hself hdata h
    | data =>
      obtain ⟨fields, hfields, hv⟩ := Option.bind_eq_some_iff.1 h
      have hdata : r.data ≠ [] := fun hnil => by simp [hnil, Fields.get?] at hfields
      refine ⟨_, lookup_env_data r hdata, fun steps hsteps => ?_⟩
      have hobject : Fields.get? type (r.data.mapValues Value.object) = some (.object fields) := by
        rw [Fields.get?_mapValues, hfields]
        rfl
      obtain ⟨first, second, rfl⟩ :
          ∃ first second, steps = [.attr first type, .attr second name] := by
        cases hsteps with
        | cons hfirst hrest =>
          cases hrest with
          | cons hsecond hrest =>
            cases hrest
            obtain ⟨first, rfl⟩ := hfirst
            obtain ⟨second, rfl⟩ := hsecond
            exact ⟨first, second, rfl⟩
      rw [Value.steps, Value.step_object hobject]
      change (Value.object fields).steps [.attr second name] = .ok v
      rw [Value.steps, Value.step_object hv]
      rfl
  | _ => exact finds_of_attr r rfl (by simp [Subject.root]) (by simp [Subject.root]) h

theorem finds_ofSubjects {values : Subject → Value} {subjects : List Subject}
    (hsubjects : ∀ t ∈ subjects, t.Referable) {s : Subject} (hs : s ∈ subjects) :
    (ofSubjects values subjects).env.Finds s (values s) :=
  finds_of_value? _ (hsubjects s hs) (value?_ofSubjects hsubjects hs)

/-! What has not been added. -/

/-- No attributes are kept under the names of `self` and of the data resources. -/
structure Apart (r : Roots) : Prop where
  self_eq : r.roots.get? "self" = none
  data_eq : r.roots.get? "data" = none

theorem apart_empty : empty.Apart := ⟨rfl, rfl⟩

theorem Apart.add {r : Roots} (h : r.Apart) {root : String} (hself : root ≠ "self")
    (hdata : root ≠ "data") (name : String) (v : Value) : (r.add root name v).Apart := by
  constructor
  · exact (Fields.get?_insert_of_ne (Ne.symm hself) _ _).trans h.self_eq
  · exact (Fields.get?_insert_of_ne (Ne.symm hdata) _ _).trans h.data_eq

theorem Apart.insert {r : Roots} (h : r.Apart) {s : Subject} (hs : s.Referable) (v : Value) :
    (r.insert s v).Apart := by
  cases s with
  | self => exact ⟨h.self_eq, h.data_eq⟩
  | resource mode type name =>
    cases mode with
    | managed =>
      obtain ⟨hself, hdata⟩ := hs.type_ne
      exact h.add hself hdata name v
    | data => exact ⟨h.self_eq, h.data_eq⟩
  | _ => exact h.add (by decide) (by decide) _ v

theorem lookup_env_self_eq_none {r : Roots} (h : r.Apart) (hself : r.self = none) :
    r.env.lookup "self" = none := by
  have hne : "self" ≠ "data" := by decide
  have hvars : Fields.get? "self" (r.roots.mapValues Value.object) = none := by
    rw [Fields.get?_mapValues, h.self_eq, Option.map_none]
  simp only [Fields.lookup_eq_get?, env, hself]
  split
  · exact hvars
  · rw [Fields.get?_insert_of_ne hne, hvars]

theorem lookup_env_data_eq_none {r : Roots} (h : r.Apart) (hdata : r.data = []) :
    r.env.lookup "data" = none := by
  have hne : "data" ≠ "self" := by decide
  have hvars : Fields.get? "data" (r.roots.mapValues Value.object) = none := by
    rw [Fields.get?_mapValues, h.data_eq, Option.map_none]
  simp only [Fields.lookup_eq_get?, env, hdata, List.isEmpty_nil, if_true]
  cases r.self with
  | none => exact hvars
  | some v => exact (Fields.get?_insert_of_ne hne v _).trans hvars

theorem misses_of_attr {r : Roots} {s : Subject} {name : String} (hattrs : s.attrs = [name])
    (hself : s.root ≠ "self") (hdata : s.root ≠ "data") (h : r.value? s = none) :
    r.env.Misses s := by
  intro u hu steps hsteps
  rw [lookup_env_of_ne r hself hdata] at hu
  obtain ⟨fields, hfields, rfl⟩ := Option.map_eq_some_iff.1 hu
  simp only [value?, hattrs, hfields, Option.bind_some] at h
  rw [hattrs] at hsteps
  cases hsteps with
  | cons hstep hrest =>
    obtain ⟨span, rfl⟩ := hstep
    rw [Value.steps, Value.step_object_error h]
    exact ⟨_, rfl⟩

/-- What has not been added for a subject is not found in the environment. -/
theorem misses_of_value? {r : Roots} (hr : r.Apart) {s : Subject} (hs : s.Referable)
    (h : r.value? s = none) : r.env.Misses s := by
  cases s with
  | self =>
    intro u hu
    have hnone : r.env.lookup "self" = none := lookup_env_self_eq_none hr h
    exact absurd (hu.symm.trans hnone) nofun
  | output name => exact hs.elim
  | resource mode type name =>
    cases mode with
    | managed =>
      obtain ⟨hself, hdata⟩ := hs.type_ne
      exact misses_of_attr rfl hself hdata h
    | data =>
      intro u hu steps hsteps
      by_cases hdata : r.data = []
      · exact absurd (hu.symm.trans (lookup_env_data_eq_none hr hdata)) nofun
      · cases hu.symm.trans (lookup_env_data r hdata)
        cases hsteps with
        | cons hfirst hrest =>
          cases hrest with
          | cons hsecond hrest =>
            obtain ⟨first, rfl⟩ := hfirst
            obtain ⟨second, rfl⟩ := hsecond
            have htype : Fields.get? type (r.data.mapValues Value.object) =
                (r.data.get? type).map Value.object := Fields.get?_mapValues _ _ _
            cases hfields : r.data.get? type with
            | none =>
              rw [hfields] at htype
              rw [Value.steps, Value.step_object_error htype]
              exact ⟨_, rfl⟩
            | some fields =>
              rw [hfields] at htype
              have hname : Fields.get? name fields = none := by
                simpa [value?, Subject.attrs, hfields] using h
              rw [Value.steps, Value.step_object htype]
              change ∃ err, (Value.object fields).steps _ = .error err
              rw [Value.steps, Value.step_object_error hname]
              exact ⟨_, rfl⟩
  | _ => exact misses_of_attr rfl (by simp [Subject.root]) (by simp [Subject.root]) h

end Roots

end StaticConfig

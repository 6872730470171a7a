import Mathlib.Data.List.Forall2
import StaticConfig.Reference

/-!
How subjects are named. A traversal names a subject by a root and the attributes that lead from
there to the subject, and no two subjects are named in the same way.
-/
namespace StaticConfig

namespace Subject

/-- The name that a reference to the subject begins with. -/
def root : Subject → String
  | input _ => "var"
  | localValue _ => "local"
  | output _ => "output"
  | path _ => "path"
  | terraform _ => "terraform"
  | count _ => "count"
  | each _ => "each"
  | resource .managed type _ => type
  | resource .data _ _ => "data"
  | moduleCall _ => "module"
  | self => "self"

/-- The attributes that lead from the root to the subject. -/
def attrs : Subject → List String
  | input name | localValue name | output name | path name | terraform name | count name
  | each name | moduleCall name => [name]
  | resource .managed _ name => [name]
  | resource .data type name => [type, name]
  | self => []

/-- The roots that do not stand for a type of resources. -/
def reserved : List String :=
  ["var", "local", "path", "terraform", "module", "count", "each", "self", "data"]

/-- A traversal can name the subject. -/
def Referable : Subject → Prop
  | output _ => False
  | count name => name = "index"
  | each name => name = "key" ∨ name = "value"
  | resource .managed type _ => type ∉ reserved
  | _ => True

/-- The subject is named by its root and the attributes that lead to it. -/
theorem ofTraversal_of_referable {s : Subject} (hs : s.Referable) :
    (Reference.ofTraversal s.root (s.attrs.map (Step.attr default)) default).map
      Reference.subject = .ok s := by
  cases s with
  | output name => exact hs.elim
  | count name =>
    have hname : name = "index" := hs
    subst hname
    rfl
  | each name =>
    have hname : name = "key" ∨ name = "value" := hs
    rcases hname with rfl | rfl
    · rfl
    · rfl
  | resource mode type name =>
    cases mode with
    | data => rfl
    | managed =>
      have htype : type ∉ reserved := hs
      simp only [reserved, List.mem_cons, List.not_mem_nil, or_false, not_or] at htype
      simp [Reference.ofTraversal, root, attrs, htype, Reference.attrAt, Except.map]
  | _ => rfl

/-- No two subjects that can be named have one place. -/
theorem eq_of_place {s t : Subject} (hs : s.Referable) (ht : t.Referable) (hroot : s.root = t.root)
    (hattrs : s.attrs = t.attrs) : s = t := by
  have hnamed := ofTraversal_of_referable hs
  rw [hroot, hattrs, ofTraversal_of_referable ht] at hnamed
  exact (Except.ok.inj hnamed).symm

end Subject

/-- The steps are attributes of these names. -/
def Step.Spell (steps : List Step) (names : List String) : Prop :=
  List.Forall₂ (fun step name => ∃ span, step = .attr span name) steps names

/-- The root and the leading steps name the subject. -/
structure Subject.NamedBy (s : Subject) (root : String) (steps : List Step) : Prop where
  root_eq : s.root = root
  spell : Step.Spell (steps.take s.attrs.length) s.attrs
  referable : s.Referable

namespace Reference

/-- A reference that is found is named by the traversal. -/
def Leads (root : String) (steps : List Step) : Except Diagnostic Reference → Prop
  | .ok r => r.subject.NamedBy root steps
  | .error _ => True

theorem attrAt_eq_some {steps : List Step} {index : Nat} {name : String} {range : Span}
    (h : attrAt steps index = some (name, range)) : steps[index]? = some (.attr range name) := by
  unfold attrAt at h
  split at h
  · rename_i hstep
    cases h
    exact hstep
  · cases h

theorem spell_first {steps : List Step} {name : String} {range : Span}
    (h : attrAt steps 0 = some (name, range)) : Step.Spell (steps.take 1) [name] := by
  have hstep := attrAt_eq_some h
  cases steps with
  | nil => cases hstep
  | cons step steps =>
    cases hstep
    exact .cons ⟨range, rfl⟩ .nil

variable {root : String} {steps : List Step} {span : Span}

theorem leads_ofAttr {make : String → Subject} (hroot : ∀ name, (make name).root = root)
    (hattrs : ∀ name, (make name).attrs = [name])
    (href : ∀ name, attrAt steps 0 = none ∨ (make name).Referable) :
    Leads root steps (ofAttr make root steps span) := by
  unfold ofAttr
  split
  · rename_i range name rest
    have hreferable : (make name).Referable := (href name).resolve_left nofun
    refine ⟨hroot name, ?_, hreferable⟩
    change Step.Spell (List.take (make name).attrs.length _) (make name).attrs
    rw [hattrs name]
    exact spell_first rfl
  · trivial
  · trivial

theorem leads_ofTraversal (root : String) (steps : List Step) (span : Span) :
    Leads root steps (ofTraversal root steps span) := by
  have hsimple {make : String → Subject} (hroot : ∀ name, (make name).root = root)
      (hattrs : ∀ name, (make name).attrs = [name]) (href : ∀ name, (make name).Referable) :
      Leads root steps (ofAttr make root steps span) :=
    leads_ofAttr hroot hattrs fun name => .inr (href name)
  unfold ofTraversal
  refine iteInduction (fun h => hsimple (fun _ => h.symm) (fun _ => rfl) fun _ => trivial)
    fun hvar => ?_
  refine iteInduction (fun h => hsimple (fun _ => h.symm) (fun _ => rfl) fun _ => trivial)
    fun hlocal => ?_
  refine iteInduction (fun h => hsimple (fun _ => h.symm) (fun _ => rfl) fun _ => trivial)
    fun hpath => ?_
  refine iteInduction (fun h => hsimple (fun _ => h.symm) (fun _ => rfl) fun _ => trivial)
    fun hterraform => ?_
  refine iteInduction (fun h => hsimple (fun _ => h.symm) (fun _ => rfl) fun _ => trivial)
    fun hmodule => ?_
  refine iteInduction (fun h => ?_) fun hcount => ?_
  · split
    · rename_i name range hname
      exact iteInduction (fun hindex => ⟨h.symm, spell_first hname, hindex⟩) fun _ => trivial
    · rename_i hnone
      exact leads_ofAttr (fun _ => h.symm) (fun _ => rfl) fun _ => .inl hnone
  refine iteInduction (fun h => ?_) fun heach => ?_
  · split
    · rename_i name range hname
      exact iteInduction (fun hkey => ⟨h.symm, spell_first hname, hkey⟩) fun _ => trivial
    · rename_i hnone
      exact leads_ofAttr (fun _ => h.symm) (fun _ => rfl) fun _ => .inl hnone
  refine iteInduction (fun h => ⟨h.symm, .nil, trivial⟩) fun hself => ?_
  refine iteInduction (fun h => ?_) fun hdata => ?_
  · split
    · rename_i type typeRange name range htype hname
      refine ⟨h.symm, ?_, trivial⟩
      have hfirst := attrAt_eq_some htype
      have hsecond := attrAt_eq_some hname
      match steps, hfirst, hsecond with
      | _ :: _ :: _, rfl, rfl => exact .cons ⟨_, rfl⟩ (.cons ⟨_, rfl⟩ .nil)
    · trivial
  · split
    · rename_i name range hname
      have hroot : root ∉ Subject.reserved := by
        simp [Subject.reserved, hvar, hlocal, hpath, hterraform, hmodule, hcount, heach, hself,
          hdata]
      exact ⟨rfl, spell_first hname, hroot⟩
    · trivial

theorem namedBy_of_eq_ok {r : Reference} (h : ofTraversal root steps span = .ok r) :
    r.subject.NamedBy root steps := by
  have hleads := leads_ofTraversal root steps span
  rwa [h] at hleads

end Reference

namespace References

/-- Nothing is wrong with the references, and each has the property. -/
structure Met (P : Reference → Prop) (found : References) : Prop where
  valid : found.diags = []
  each : ∀ r ∈ found.refs, P r

theorem met_append {P : Reference → Prop} {a b : References} :
    (a ++ b).Met P ↔ a.Met P ∧ b.Met P := by
  constructor
  · intro h
    obtain ⟨hva, hvb⟩ := List.append_eq_nil_iff.1 h.valid
    obtain ⟨hea, heb⟩ := List.forall_mem_append.1 h.each
    exact ⟨⟨hva, hea⟩, hvb, heb⟩
  · intro h
    obtain ⟨ha, hb⟩ := h
    exact ⟨List.append_eq_nil_iff.2 ⟨ha.valid, hb.valid⟩,
      List.forall_mem_append.2 ⟨ha.each, hb.each⟩⟩

end References

end StaticConfig

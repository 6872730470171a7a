import StaticConfig.Reference

/-!
What a reference can be to. Every reference of an expression is named by the leading steps of a
traversal, where the root `local` always stands for a local value. So no other subject has the
text of a local value whose name has no dot in it.
-/
namespace StaticConfig

namespace Reference

/-- The reference is what some traversal names. -/
def Named (r : Reference) : Prop :=
  ∃ root steps span, ofTraversal root steps span = .ok r

/-- A resource type is not the word that local values go by, and a traversal that names nothing
is an invalid reference. -/
def Fits : Except Diagnostic Reference → Prop
  | .ok r => ∀ type name, r.subject = .resource .managed type name → type ≠ "local"
  | .error d => d.kind = .invalidReference

theorem fits_ofAttr {make : String → Subject}
    (hmake : ∀ name type other, make name ≠ .resource .managed type other) (root : String)
    (steps : List Step) (span : Span) : Fits (ofAttr make root steps span) := by
  unfold ofAttr
  split
  · exact fun type name h => absurd h (hmake _ _ _)
  · rfl
  · rfl

theorem fits_ofTraversal (root : String) (steps : List Step) (span : Span) :
    Fits (ofTraversal root steps span) := by
  unfold ofTraversal
  refine iteInduction (fun _ => fits_ofAttr (by simp) _ _ _) fun _ => ?_
  refine iteInduction (fun _ => fits_ofAttr (by simp) _ _ _) fun hlocal => ?_
  refine iteInduction (fun _ => fits_ofAttr (by simp) _ _ _) fun _ => ?_
  refine iteInduction (fun _ => fits_ofAttr (by simp) _ _ _) fun _ => ?_
  refine iteInduction (fun _ => fits_ofAttr (by simp) _ _ _) fun _ => ?_
  refine iteInduction (fun _ => ?_) fun _ => ?_
  · split
    · exact iteInduction (fun _ => nofun) fun _ => rfl
    · exact fits_ofAttr (by simp) _ _ _
  refine iteInduction (fun _ => ?_) fun _ => ?_
  · split
    · exact iteInduction (fun _ => nofun) fun _ => rfl
    · exact fits_ofAttr (by simp) _ _ _
  refine iteInduction (fun _ => nofun) fun _ => ?_
  refine iteInduction (fun _ => ?_) fun _ => ?_
  · split
    · exact nofun
    · rfl
  · split
    · rintro type name ⟨⟩
      exact hlocal
    · rfl

theorem Named.type_ne_local {r : Reference} (h : r.Named) {type name : String}
    (hr : r.subject = .resource .managed type name) : type ≠ "local" := by
  obtain ⟨root, steps, span, h⟩ := h
  have hfits := fits_ofTraversal root steps span
  rw [h] at hfits
  exact hfits type name hr

end Reference

namespace References

/-- The references are what traversals name, and nothing is wrong but with traversals that name
nothing. -/
structure Proper (found : References) : Prop where
  named : ∀ r ∈ found.refs, r.Named
  kind_eq : ∀ d ∈ found.diags, d.kind = .invalidReference

theorem proper_empty : empty.Proper := ⟨nofun, nofun⟩

theorem Proper.append {a b : References} (ha : a.Proper) (hb : b.Proper) : (a ++ b).Proper := by
  constructor
  · intro r hr
    rcases List.mem_append.1 hr with h | h
    · exact ha.named r h
    · exact hb.named r h
  · intro d hd
    rcases List.mem_append.1 hd with h | h
    · exact ha.kind_eq d h
    · exact hb.kind_eq d h

theorem proper_ofTraversal (bound : List String) (root : String) (steps : List Step)
    (span : Span) : (ofTraversal bound root steps span).Proper := by
  unfold ofTraversal
  split
  · exact proper_empty
  · split
    · rename_i r hr
      refine ⟨fun r' hr' => ?_, nofun⟩
      rw [List.mem_singleton.1 hr']
      exact ⟨root, steps, span, hr⟩
    · rename_i d hd
      refine ⟨nofun, fun d' hd' => ?_⟩
      rw [List.mem_singleton.1 hd']
      have hfits := Reference.fits_ofTraversal root steps span
      rwa [hd] at hfits

variable {ι : Type} {P : (ι → References) → Prop} {bound : ι → List String}

/-- A property of references that may depend on a parameter, which holds of no references, and of
those of two expressions if of those of each. -/
structure Gathered (P : (ι → References) → Prop) : Prop where
  empty : P fun _ => empty
  append {a b : ι → References} : P a → P b → P fun i => a i ++ b i

/-- The property holds of the references of traversals, whatever else is bound. -/
def HoldsInside (P : (ι → References) → Prop) (bound : ι → List String) : Prop :=
  ∀ names root steps span, P fun i => ofTraversal (names ++ bound i) root steps span

theorem HoldsInside.bind (h : HoldsInside P bound) (keyVar : Option String) (valueVar : String) :
    HoldsInside P fun i => bind (bound i) keyVar valueVar := by
  intro names root steps span
  have hnames := h (names ++ valueVar :: keyVar.toList) root steps span
  simpa only [References.bind, List.append_assoc] using hnames

namespace Gathered

mutual

theorem ofExpr (h : Gathered P) {bound : ι → List String} (ht : HoldsInside P bound) :
    ∀ e : Expr, P fun i => ofExpr (bound i) e
  | .literal _ _ => h.empty
  | .traversal span root steps => ht [] root steps span
  | .template _ parts => ofParts h ht parts
  | .relative _ source _ => ofExpr h ht source
  | .splat _ source _ => ofExpr h ht source
  | .index _ collection key => h.append (ofExpr h ht collection) (ofExpr h ht key)
  | .tuple _ items => ofExprs h ht items
  | .object _ items => ofItems h ht items
  | .call _ _ args _ => ofExprs h ht args
  | .unary _ _ operand => ofExpr h ht operand
  | .parens _ inner => ofExpr h ht inner
  | .binary _ _ lhs rhs => h.append (ofExpr h ht lhs) (ofExpr h ht rhs)
  | .conditional _ cond yes no =>
    h.append (h.append (ofExpr h ht cond) (ofExpr h ht yes)) (ofExpr h ht no)
  | .forEach _ keyVar valueVar collection key value cond _ =>
    h.append (h.append (h.append (ofExpr h ht collection)
      (ofOption h (ht.bind keyVar valueVar) key)) (ofExpr h (ht.bind keyVar valueVar) value))
      (ofOption h (ht.bind keyVar valueVar) cond)

theorem ofExprs (h : Gathered P) {bound : ι → List String} (ht : HoldsInside P bound) :
    ∀ es : List Expr, P fun i => ofExprs (bound i) es
  | [] => h.empty
  | e :: es => h.append (ofExpr h ht e) (ofExprs h ht es)

theorem ofOption (h : Gathered P) {bound : ι → List String} (ht : HoldsInside P bound) :
    ∀ e : Option Expr, P fun i => ofOption (bound i) e
  | none => h.empty
  | some e => ofExpr h ht e

theorem ofParts (h : Gathered P) {bound : ι → List String} (ht : HoldsInside P bound) :
    ∀ parts : List TemplatePart, P fun i => ofParts (bound i) parts
  | [] => h.empty
  | .text _ :: parts => ofParts h ht parts
  | .interp e :: parts => h.append (ofExpr h ht e) (ofParts h ht parts)

theorem ofItems (h : Gathered P) {bound : ι → List String} (ht : HoldsInside P bound) :
    ∀ items : List (ObjectKey × Expr), P fun i => ofItems (bound i) items
  | [] => h.empty
  | (.name _ _, value) :: items => h.append (ofExpr h ht value) (ofItems h ht items)
  | (.expr key, value) :: items =>
    h.append (h.append (ofExpr h ht key) (ofExpr h ht value)) (ofItems h ht items)

end

end Gathered

theorem proper_ofExpr (bound : List String) (e : Expr) : (ofExpr bound e).Proper := by
  have hproper : Gathered fun found : Unit → References => (found ()).Proper :=
    ⟨proper_empty, Proper.append⟩
  have hinside : HoldsInside (fun found : Unit → References => (found ()).Proper)
      fun _ => bound := fun names root steps span => proper_ofTraversal _ root steps span
  exact hproper.ofExpr hinside e

end References

/-- A text with one dot in it has only one way to split at a dot. -/
theorem eq_of_append_dot {front back front' back' : List Char} (hfront : '.' ∉ front')
    (hback : '.' ∉ back') (h : front ++ '.' :: back = front' ++ '.' :: back') :
    front = front' := by
  rcases List.append_eq_append_iff.1 h with ⟨mid, rfl, hmid⟩ | ⟨mid, rfl, hmid⟩
  · cases mid with
    | nil => rw [List.append_nil]
    | cons c mid =>
      obtain ⟨rfl, -⟩ := List.cons_eq_cons.1 hmid
      simp at hfront
  · cases mid with
    | nil => rw [List.append_nil]
    | cons c mid =>
      obtain ⟨-, rfl⟩ := List.cons_eq_cons.1 hmid
      simp at hback

theorem Subject.text_localValue_injective {a b : String}
    (h : (localValue a).text = (localValue b).text) : a = b :=
  (String.append_right_inj _).1 h

/-- Only a local value has the text of a local value whose name has no dot. -/
theorem Reference.Named.eq_localValue {r : Reference} (hr : r.Named) {name : String}
    (hname : '.' ∉ name.toList) (h : r.subject.text = (Subject.localValue name).text) :
    r.subject = .localValue name := by
  have hchars := congrArg String.toList h
  cases hs : r.subject with
  | localValue other =>
    rw [hs] at h
    rw [Subject.text_localValue_injective h]
  | resource mode type other =>
    cases mode with
    | data => simp [hs, Subject.text] at hchars
    | managed =>
      have htype := hr.type_ne_local hs
      have hsplit : type.toList ++ '.' :: other.toList = "local".toList ++ '.' :: name.toList := by
        simpa [hs, Subject.text] using hchars
      have heq := eq_of_append_dot (by decide) hname hsplit
      exact absurd (String.toList_inj.1 heq) htype
  | _ => simp [hs, Subject.text] at hchars

end StaticConfig

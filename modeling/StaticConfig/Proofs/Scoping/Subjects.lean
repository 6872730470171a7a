import Mathlib.Data.List.Nodup
import StaticConfig.Proofs.Resolution.InStep
import StaticConfig.Proofs.Scoping.Complete
import StaticConfig.Proofs.Scoping.Wanted
import StaticConfig.Text.Quoted

/-!
The texts of subjects. The text of a subject is its root and its attributes with dots between them,
and an identifier has no dot. So a text that traversals of identifiers lead to belongs to one
subject: what is looked up once for each text is looked up once for each subject, and a subject is
in progress where its text is.
-/
namespace StaticConfig

/-- The name of the step, if it has one, is an identifier. -/
def Step.Worded : Step → Prop
  | .attr _ name => Text.isIdentifier name = true
  | .index _ _ => True

theorem Step.Spell.isIdentifier {steps : List Step} {names : List String}
    (h : Step.Spell steps names) (hsteps : ∀ step ∈ steps, step.Worded) :
    ∀ name ∈ names, Text.isIdentifier name = true := by
  induction h with
  | nil => exact nofun
  | cons hstep hrest ih =>
    obtain ⟨span, rfl⟩ := hstep
    obtain ⟨hname, hsteps⟩ := List.forall_mem_cons.1 hsteps
    exact List.forall_mem_cons.2 ⟨hname, ih hsteps⟩

namespace Subject

/-- A traversal can name the subject, and the names that lead to it are identifiers. -/
structure Worded (s : Subject) : Prop where
  referable : s.Referable
  names : ∀ name ∈ s.root :: s.attrs, Text.isIdentifier name = true

theorem text_eq_intercalate (s : Subject) :
    s.text = String.intercalate "." (s.root :: s.attrs) := by
  apply String.toList_injective
  cases s with
  | resource mode type name => cases mode <;> simp [text, root, attrs]
  | _ => simp [text, root, attrs]

variable {s t : Subject}

/-- Split at its dots, the text gives back the names. -/
theorem Worded.splitOn_text (h : s.Worded) :
    s.text.toList.splitOn '.' = (s.root :: s.attrs).map String.toList := by
  rw [text_eq_intercalate, String.toList_intercalate]
  refine List.splitOn_intercalate '.' (List.forall_mem_map.2 fun name hname => ?_) nofun
  exact Text.dot_not_mem_of_isIdentifier (h.names name hname)

theorem eq_of_text (hs : s.Worded) (ht : t.Worded) (h : s.text = t.text) : s = t := by
  have hnames : (s.root :: s.attrs).map String.toList = (t.root :: t.attrs).map String.toList := by
    rw [← hs.splitOn_text, ← ht.splitOn_text, h]
  obtain ⟨hroot, hattrs⟩ := List.cons.inj
    (List.map_injective_iff.2 (fun _ _ => String.toList_injective) hnames)
  exact eq_of_place hs.referable ht.referable hroot hattrs

end Subject

namespace Reference

/-- A traversal whose root and attributes are identifiers names the reference. -/
def Worded (r : Reference) : Prop :=
  ∃ root steps span, Text.isIdentifier root = true ∧ (∀ step ∈ steps, step.Worded) ∧
    ofTraversal root steps span = .ok r

variable {r q : Reference}

theorem Worded.subject (h : r.Worded) : r.subject.Worded := by
  obtain ⟨root, steps, span, hroot, hsteps, hr⟩ := h
  have hnamed := namedBy_of_eq_ok hr
  have hattrs := hnamed.spell.isIdentifier fun step hstep =>
    hsteps step (List.mem_of_mem_take hstep)
  exact ⟨hnamed.referable, List.forall_mem_cons.2 ⟨hnamed.root_eq ▸ hroot, hattrs⟩⟩

theorem subject_eq_of_text (hr : r.Worded) (hq : q.Worded)
    (h : r.subject.text = q.subject.text) : r.subject = q.subject :=
  Subject.eq_of_text hr.subject hq.subject h

end Reference

/-! References in progress. -/

namespace CallStack

/-- A reference leads back exactly to a subject that is in progress. -/
theorem isActive_after_iff {ops : List Operation} (h : ∀ q, .push q ∈ ops → q.Worded)
    {r : Reference} (hr : r.Worded) :
    (after ops).isActive r = true ↔
      ∃ q ∈ (after ops).addresses.values, q.subject = r.subject := by
  have hstep : (after ops).InStep := inStep_after ops
  rw [isActive_iff_mem_keys]
  constructor
  · intro hkey
    obtain ⟨q, hq⟩ := Fields.exists_get?_of_mem_keys hkey
    have hmem : q ∈ (after ops).addresses.values := List.mem_map_of_mem (Fields.mem_of_get? hq)
    have hworded := forall_values_after h q hmem
    exact ⟨q, hmem, Reference.subject_eq_of_text hworded hr (hstep.subject_text _ q hq)⟩
  · rintro ⟨q, hq, hsubject⟩
    obtain ⟨⟨name, q⟩, hmem, rfl⟩ := List.mem_map.1 hq
    have hget := Fields.get?_of_mem hstep.sorted hmem
    rw [← hsubject, hstep.subject_text name q hget]
    exact Fields.mem_keys_of_get? hget

end CallStack

/-! Values that are added for subjects. -/

namespace Roots

/-- Adds the values of the subjects, one after the other. -/
def insertAll (r : Roots) (found : List (Subject × Value)) : Roots :=
  found.foldl (fun r f => r.insert f.1 f.2) r

variable {found : List (Subject × Value)}

theorem apart_insertAll {r : Roots} (h : r.Apart) (hfound : ∀ f ∈ found, f.1.Referable) :
    (r.insertAll found).Apart :=
  List.foldlRecOn found _ h fun _ hr f hf => hr.insert (hfound f hf) f.2

/-- Each subject has the value that was added for it. -/
theorem value?_insertAll {r : Roots} (hnodup : (found.map Prod.fst).Nodup)
    (hfound : ∀ f ∈ found, f.1.Referable) {t : Subject} (ht : t.Referable) :
    (r.insertAll found).value? t = (found.lookup t).or (r.value? t) := by
  induction found generalizing r with
  | nil => rfl
  | cons f found ih =>
    obtain ⟨s, v⟩ := f
    obtain ⟨hs, hfound⟩ := List.forall_mem_cons.1 hfound
    obtain ⟨hnew, hnodup⟩ := List.nodup_cons.1 hnodup
    have hinsert : (r.insertAll ((s, v) :: found)).value? t =
        (found.lookup t).or ((r.insert s v).value? t) := ih hnodup hfound
    rw [hinsert]
    by_cases hst : t = s
    · subst hst
      have hnone : found.lookup t = none := by
        rw [List.lookup_eq_none_iff]
        exact fun f hf => bne_iff_ne.2 fun heq => hnew (List.mem_map.2 ⟨f, hf, heq.symm⟩)
      rw [hnone, value?_insert_self, List.lookup_cons_self]
      rfl
    · have hplace : s.root = t.root → s.attrs ≠ t.attrs := fun hroot hattrs =>
        hst (Subject.eq_of_place ht hs hroot.symm hattrs.symm)
      rw [value?_insert_of_ne r v hplace, List.lookup_cons, beq_false_of_ne hst]

end Roots

namespace Eval

variable {r : Roots} {q : Reference} {root : String} {steps : List Step} {span : Span}

/-- A traversal goes on from the value of the subject that it names. -/
theorem eval_traversal_of_value? (h : Reference.ofTraversal root steps span = .ok q) {v : Value}
    (hv : r.value? q.subject = some v) (setting : Setting) :
    eval setting r.env (.traversal span root steps) =
      eval setting []
        (.relative span (.literal span v) (steps.drop q.subject.attrs.length)) := by
  have hnamed := Reference.namedBy_of_eq_ok h
  have hmet : (References.ofTraversal [] root steps span).Met (Has (fun _ => v) r.env) := by
    simp only [References.ofTraversal, h]
    refine ⟨rfl, fun q' hq' => ?_⟩
    rw [List.mem_singleton.1 hq']
    exact r.finds_of_value? hnamed.referable hv
  have hscoped : Scoped [] r.env r.env [] := ⟨nofun, fun _ _ => rfl⟩
  have heval := eval_resolveTraversal (s := setting) hscoped hmet
  simpa only [Expr.resolveTraversal, h, List.contains_nil, Bool.false_eq_true, if_false] using heval

/-- A traversal that names a subject without a value is in error. -/
theorem hasErrors_of_value? (hr : r.Apart) (h : Reference.ofTraversal root steps span = .ok q)
    (hv : r.value? q.subject = none) (setting : Setting) :
    (eval setting r.env (.traversal span root steps)).diags.hasErrors = true := by
  have hnamed := Reference.namedBy_of_eq_ok h
  have hmisses := Roots.misses_of_value? hr hnamed.referable hv
  rw [eval]
  cases hu : r.env.lookup root with
  | none => rfl
  | some u =>
    have hroot : r.env.lookup q.subject.root = some u := hnamed.root_eq ▸ hu
    obtain ⟨err, herr⟩ := hmisses u hroot _ hnamed.spell
    have hsteps : u.steps steps = .error err := by
      rw [← List.take_append_drop q.subject.attrs.length steps, Value.steps_append, herr]
      rfl
    simp only [hsteps]
    rfl

/-- Each subject's value is found by traversals that name this subject, and by no others. -/
theorem eval_traversal_insertAll {found : List (Subject × Value)}
    (hnodup : (found.map Prod.fst).Nodup) (hfound : ∀ f ∈ found, f.1.Referable)
    (h : Reference.ofTraversal root steps span = .ok q) (setting : Setting) :
    let report := eval setting (Roots.empty.insertAll found).env (.traversal span root steps)
    match found.lookup q.subject with
    | some v => report = eval setting []
        (.relative span (.literal span v) (steps.drop q.subject.attrs.length))
    | none => report.diags.hasErrors = true := by
  intro report
  have hempty : Roots.empty.value? q.subject = none := by
    unfold Roots.value?
    split <;> rfl
  have hvalue : (Roots.empty.insertAll found).value? q.subject = found.lookup q.subject := by
    rw [Roots.value?_insertAll hnodup hfound (Reference.namedBy_of_eq_ok h).referable, hempty,
      Option.or_none]
  split
  · next v hv => exact eval_traversal_of_value? h (hvalue.trans hv) setting
  · next hnone =>
    exact hasErrors_of_value? (Roots.apart_insertAll Roots.apart_empty hfound) h
      (hvalue.trans hnone) setting

end Eval

/-! References that are looked up. -/

namespace Scope

variable {ε σ : Type}

theorem distinctFrom_sublist (seen : List String) (refs : List Reference) :
    (distinctFrom seen refs).Sublist refs := by
  induction refs generalizing seen with
  | nil => exact .slnil
  | cons r refs ih =>
    rw [distinctFrom]
    split
    · exact (ih seen).cons r
    · exact (ih _).cons_cons r

/-- Of each subject that has not been seen, the first reference is kept. -/
theorem find?_distinctFrom {seen : List Subject} (hseen : ∀ s ∈ seen, s.Worded)
    {refs : List Reference} (hrefs : ∀ r ∈ refs, r.Worded) (t : Subject) :
    (distinctFrom (seen.map Subject.text) refs).find? (·.subject = t) =
      if t ∈ seen then none else refs.find? (·.subject = t) := by
  induction refs generalizing seen with
  | nil => simp [distinctFrom]
  | cons r refs ih =>
    obtain ⟨hr, hrefs⟩ := List.forall_mem_cons.1 hrefs
    have hmem : r.subject.text ∈ seen.map Subject.text ↔ r.subject ∈ seen := by
      constructor
      · intro htext
        obtain ⟨s, hs, heq⟩ := List.mem_map.1 htext
        rwa [← Subject.eq_of_text (hseen s hs) hr.subject heq]
      · exact List.mem_map_of_mem
    rw [distinctFrom, List.contains_eq_mem]
    split
    · next htext =>
      rw [ih hseen hrefs]
      by_cases ht : t ∈ seen
      · rw [if_pos ht, if_pos ht]
      · have hne : r.subject ≠ t := fun heq => ht (heq ▸ hmem.1 (of_decide_eq_true htext))
        rw [if_neg ht, if_neg ht, List.find?_cons_of_neg (by simpa using hne)]
    · next htext =>
      have hnew : r.subject ∉ seen := fun h => htext (decide_eq_true (hmem.2 h))
      by_cases ht : r.subject = t
      · rw [List.find?_cons_of_pos (by simpa using ht), List.find?_cons_of_pos (by simpa using ht),
          if_neg (ht ▸ hnew)]
      · rw [List.find?_cons_of_neg (by simpa using ht), List.find?_cons_of_neg (by simpa using ht)]
        have hrest := ih (List.forall_mem_cons.2 ⟨hr.subject, hseen⟩) hrefs
        rw [List.map_cons] at hrest
        rw [hrest]
        simp [Ne.symm ht]

theorem nodup_distinctFrom (seen : List String) (refs : List Reference) :
    ((distinctFrom seen refs).map fun r => r.subject.text).Nodup ∧
      ∀ r ∈ distinctFrom seen refs, r.subject.text ∉ seen := by
  induction refs generalizing seen with
  | nil => exact ⟨.nil, nofun⟩
  | cons r refs ih =>
    rw [distinctFrom, List.contains_eq_mem]
    split
    · exact ih seen
    · next hnew =>
      obtain ⟨hnodup, hrest⟩ := ih (r.subject.text :: seen)
      refine ⟨List.nodup_cons.2 ⟨fun hmem => ?_, hnodup⟩, List.forall_mem_cons.2 ⟨?_, ?_⟩⟩
      · obtain ⟨q, hq, heq⟩ := List.mem_map.1 hmem
        exact hrest q hq (heq ▸ List.mem_cons_self)
      · exact fun hmem => hnew (decide_eq_true hmem)
      · exact fun q hq hmem => hrest q hq (List.mem_cons_of_mem _ hmem)

theorem nodup_subject_distinctFrom (seen : List String) (refs : List Reference) :
    ((distinctFrom seen refs).map Reference.subject).Nodup := by
  refine List.Nodup.of_map Subject.text ?_
  rw [List.map_map]
  exact (nodup_distinctFrom seen refs).1

/-- The looked up values are added for their subjects in turn. -/
theorem lookupAll_eq (source : DataSource ε σ) (roots : Roots) (ds : Diagnostics)
    (refs : List Reference) :
    lookupAll source roots ds refs = refs.mapM source.lookup >>= fun found =>
      pure ⟨roots.insertAll ((refs.map Reference.subject).zip (found.map Report.result)),
        ds ++ found.flatMap Report.diags⟩ := by
  induction refs generalizing roots ds with
  | nil => simp [lookupAll, Roots.insertAll]
  | cons r refs ih =>
    simp only [lookupAll, ih, List.mapM_cons, bind_assoc, pure_bind]
    refine congrArg (source.lookup r >>= ·) (funext fun first => ?_)
    refine congrArg (refs.mapM source.lookup >>= ·) (funext fun rest => ?_)
    simp [Roots.insertAll]

/-- Where an evaluation has the values for the references from: each subject has been looked up
once, by the first reference to it. -/
theorem exists_found_of_eval {s : Scope ε σ} {e : Expr} {want : Ty} {st st' : σ}
    {report : Report Value} (h : (s.eval e want).run.run st = (.ok report, st')) :
    let firsts := distinctFrom [] (References.ofExpr [] e).refs
    ∃ found roots, (firsts.mapM s.source.lookup).run.run st = (.ok found, st') ∧
      roots.result = Roots.empty.insertAll
        ((firsts.map Reference.subject).zip (found.map Report.result)) ∧
      s.conclude e want roots = report := by
  obtain ⟨roots, hroots, hreport⟩ := run_eval_eq_ok.1 h
  rw [resolve, lookupAll_eq, Resolving.run_bind] at hroots
  split at hroots
  · next found st'' hfound =>
    cases hroots
    exact ⟨found, _, hfound, rfl, hreport⟩
  · cases hroots

end Scope

/-- Subjects that traversals of identifiers name are equal if their texts are. So a reference leads
back exactly to a subject that is in progress. Of the references of an expression, just the first
to each subject is looked up. In the names that the expression then sees, a traversal goes on from
the value that has been found for the subject that it names, and is in error where none has. -/
theorem Subject.texts_identify_subjects {ε σ : Type} :
    (∀ r q : Reference, r.Worded → q.Worded → r.subject.text = q.subject.text →
      r.subject = q.subject) ∧
    (∀ (ops : List CallStack.Operation) (r : Reference), (∀ q, .push q ∈ ops → q.Worded) →
      r.Worded → ((CallStack.after ops).isActive r = true ↔
        ∃ q ∈ (CallStack.after ops).addresses.values, q.subject = r.subject)) ∧
    ∀ (s : Scope ε σ) (e : Expr), (∀ r ∈ (References.ofExpr [] e).refs, r.Worded) →
      let refs := (References.ofExpr [] e).refs
      let firsts := Scope.distinctFrom [] refs
      (firsts.Sublist refs ∧ (firsts.map Reference.subject).Nodup ∧
        ∀ t, firsts.find? (·.subject = t) = refs.find? (·.subject = t)) ∧
      ∀ want st st' result, (s.eval e want).run.run st = (.ok result, st') →
        ∃ found roots, (firsts.mapM s.source.lookup).run.run st = (.ok found, st') ∧
          found.length = firsts.length ∧ s.conclude e want roots = result ∧
          ∀ setting root steps span r, Reference.ofTraversal root steps span = .ok r →
            let values := (firsts.map Reference.subject).zip (found.map Report.result)
            let report := Eval.eval setting roots.result.env (.traversal span root steps)
            match values.lookup r.subject with
            | some v => report = Eval.eval setting []
                (.relative span (.literal span v) (steps.drop r.subject.attrs.length))
            | none => report.diags.hasErrors = true := by
  refine ⟨fun r q => Reference.subject_eq_of_text,
    fun ops r hops hr => CallStack.isActive_after_iff hops hr, fun s e he => ?_⟩
  intro refs firsts
  have hsub : firsts.Sublist refs := Scope.distinctFrom_sublist [] refs
  have hnodup : (firsts.map Reference.subject).Nodup := Scope.nodup_subject_distinctFrom [] refs
  refine ⟨⟨hsub, hnodup, fun t => ?_⟩, fun want st st' result hrun => ?_⟩
  · exact (Scope.find?_distinctFrom (List.forall_mem_nil _) he t).trans (if_neg List.not_mem_nil)
  · obtain ⟨found, roots, hfound, hroots, hresult⟩ := Scope.exists_found_of_eval hrun
    have hlength := Resolving.length_of_run_mapM hfound
    refine ⟨found, roots, hfound, hlength, hresult, fun setting root steps span r hr => ?_⟩
    rw [hroots]
    refine Eval.eval_traversal_insertAll ?_ (fun f hf => ?_) hr setting
    · rwa [List.map_fst_zip (by simp [hlength, firsts, refs])]
    · obtain ⟨q, hq, hsubject⟩ := List.mem_map.1 (List.of_mem_zip hf).1
      rw [← hsubject]
      exact (he q (hsub.subset hq)).subject.referable

/-- A data resource and a managed one, of one type and name. -/
theorem Subject.texts_identify_subjects_data :
    let data : Expr := .traversal default "data" [.attr default "t", .attr default "n"]
    let managed : Expr := .traversal default "t" [.attr default "n"]
    let first : Reference := ⟨.resource .data "t" "n", default⟩
    let second : Reference := ⟨.resource .managed "t" "n", default⟩
    let e : Expr := .tuple default [data, managed, data]
    let s : Scope String Unit :=
      .ofSource ⟨fun _ _ _ => [], fun r => pure ⟨.string r.subject.text, []⟩⟩ fun _ _ => none
    (References.ofExpr [] e).refs = [first, second, first] ∧
      (CallStack.after [.push first]).isActive second = false ∧
      ∃ result roots, (s.eval e .dynamic).run.run () = (.ok result, ()) ∧
        s.conclude e .dynamic roots = result ∧
        (Eval.eval ⟨s.library, false⟩ roots.result.env managed).result = .string "t.n" := by
  intro data managed first second e s
  have hname : (Step.attr default "n").Worded := by
    change Text.isIdentifier "n" = true
    decide +kernel
  have htype : (Step.attr default "t").Worded := by
    change Text.isIdentifier "t" = true
    decide +kernel
  have hfirst : first.Worded :=
    ⟨"data", [.attr default "t", .attr default "n"], default, by decide +kernel,
      List.forall_mem_cons.2 ⟨htype, List.forall_mem_singleton.2 hname⟩, rfl⟩
  have hsecond : second.Worded :=
    ⟨"t", [.attr default "n"], default, by decide +kernel,
      List.forall_mem_singleton.2 hname, rfl⟩
  have hrefs : (References.ofExpr [] e).refs = [first, second, first] := rfl
  have hall := texts_identify_subjects (ε := String) (σ := Unit)
  have hops (q : Reference) (hq : .push q ∈ [CallStack.Operation.push first]) : q.Worded := by
    cases List.mem_singleton.1 hq
    exact hfirst
  refine ⟨hrefs, ?_, ?_⟩
  · rw [← Bool.not_eq_true, hall.2.1 [.push first] second hops hsecond]
    rintro ⟨q, hq, hsubject⟩
    cases List.mem_singleton.1 hq
    cases hsubject
  · have hworded : ∀ r ∈ (References.ofExpr [] e).refs, r.Worded := by
      rw [hrefs]
      simp [hfirst, hsecond]
    obtain ⟨-, hrun⟩ := hall.2.2 s e hworded
    have heval : (s.eval e .dynamic).run.run () = (.ok _, ()) := rfl
    obtain ⟨found, roots, hfound, -, hresult, htraversals⟩ := hrun .dynamic () () _ heval
    cases hfound
    have hvalue := htraversals ⟨s.library, false⟩ "t" [.attr default "n"] default second rfl
    exact ⟨_, roots, heval, hresult, congrArg Report.result hvalue⟩

end StaticConfig

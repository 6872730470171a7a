import StaticConfig.Proofs.Builtin.Call
import StaticConfig.Proofs.Evaluation.Loops
import StaticConfig.Proofs.Sensitivity.Indistinct

/-!
Marked content does not flow into results without marks. Values that only differ in what is
marked lead to results that only differ in what is marked, for all expressions without
conditionals that neither take marks off nor turn the items of a marked sequence into arguments.
-/
namespace StaticConfig

open Value Eval Builtin

/-- No call takes marks off or expands its last argument. -/
def Fragment.concealing : Fragment where
  literal _ := True
  call name expand := name ≠ "nonsensitive" ∧ expand = false

namespace Value.Indistinct

theorem of_isMarked {v w : Value} (hv : v.isMarked = true) (hw : w.isMarked = true) :
    Indistinct v w := by
  cases v with
  | sensitive v =>
    cases w with
    | sensitive w => exact .sensitive
    | _ => cases hw
  | _ => cases hv

theorem isKnown_eq {v w : Value} (h : Indistinct v w) (hm : v.isMarked = false) :
    v.isKnown = w.isKnown := by
  cases h <;> first | rfl | cases hm

/-- The results of two runs are to be indistinct. -/
def coupling : Coupling where
  rel := Indistinct
  unknowns := False
  marks := True
  unmarked := False

theorem coupled_iff {v w : Value} : coupling.Coupled v w ↔ Indistinct v w :=
  ⟨fun h => h.1, fun h => ⟨h, fun hu => hu.elim, fun hu => hu.elim⟩⟩

theorem coupled_all {vs ws : List Value} (h : List.Forall₂ Indistinct vs ws) :
    List.Forall₂ coupling.Coupled vs ws :=
  h.imp fun _ _ => coupled_iff.2

theorem coupled_fields {as bs : Fields Value} (h : Fields.Related Indistinct as bs) :
    Fields.Related coupling.Coupled as bs :=
  h.mono fun _ _ => coupled_iff.2

/-! Functions. -/

/-- Calls with indistinct arguments have indistinct results. -/
def Conceals (f : Builtin) : Prop :=
  ∀ pureOnly args args' v w, List.Forall₂ Indistinct args args' →
    f.call pureOnly args = .ok v → f.call pureOnly args' = .ok w → Indistinct v w

theorem conceals_of_shields {f : Builtin} (hf : f.Shields) : Conceals f := by
  obtain ⟨hm, himpure⟩ := hf
  intro pureOnly args args' v w hargs hv hw
  cases hmark : anyMark args with
  | false =>
    cases eq_of_anyMark hargs hmark
    cases hv.symm.trans hw
    exact refl v
  | true =>
    have hmark' : anyMark args' = true := anyMark_eq hargs ▸ hmark
    exact of_isMarked (isMarked_of_call hm himpure hmark hv)
      (isMarked_of_call hm himpure hmark' hw)

theorem conceals_onMarked {ty : Ty} {run : Value → CallResult}
    (h : ∀ a b v w, Indistinct a b → run a = .ok v → run b = .ok w → Indistinct v w) :
    Conceals (Conversions.onMarked ty run) := by
  intro pureOnly args args' v w hargs hv hw
  have direct {args : List Value} {v : Value}
      (hv : (Conversions.onMarked ty run).call pureOnly args = .ok v) :
      (Conversions.onMarked ty run).run args = .ok v := by
    cases result_of_call hv with
    | direct _ h => exact h
    | _ => contradiction
  have hv := direct hv
  have hw := direct hw
  cases hargs with
  | nil => cases hv
  | cons hab _ => exact h _ _ v w hab hv hw

theorem conceals_sensitive : Conceals (Conversions.onMarked .dynamic Conversions.sensitive) := by
  refine conceals_onMarked fun a b v w _ hv hw => ?_
  cases hv
  cases hw
  exact of_isMarked (isMarked_mark a) (isMarked_mark b)

theorem conceals_issensitive : Conceals (Conversions.onMarked .bool Conversions.issensitive) := by
  refine conceals_onMarked fun a b v w hab hv hw => ?_
  have heq : Conversions.issensitive a = Conversions.issensitive b := by
    rw [Conversions.issensitive, Conversions.issensitive, ← hab.isMarked_eq]
    split
    · rfl
    · rename_i hm
      rw [hab.isKnown_eq (Bool.not_eq_true _ ▸ hm)]
  rw [heq] at hv
  cases hv.symm.trans hw
  exact refl v

theorem conceals_standard {ambient : Library.Ambient} {site : Span} {name : String} {f : Builtin}
    (h : Library.standard ambient site name = some f) (hname : name ≠ "nonsensitive") :
    Conceals f := by
  by_cases hseeing : name ∈ Library.seeing
  · simp only [Library.seeing, List.mem_cons, List.not_mem_nil, or_false] at hseeing
    rcases hseeing with rfl | rfl | rfl
    · cases h
      exact conceals_sensitive
    · exact absurd rfl hname
    · cases h
      exact conceals_issensitive
  · exact conceals_of_shields (Library.shields_standard h hseeing)

/-! Expressions. -/

theorem view {v w : Value} (h : Indistinct v w) :
    coupling.Free v.isKnown v.isMarked w.isMarked ∨ Alike coupling.Coupled v w := by
  cases h with
  | sensitive => exact .inl (.inr ⟨trivial, rfl, rfl⟩)
  | null => exact .inr .null
  | unknown => exact .inr .unknown
  | bool => exact .inr .bool
  | number => exact .inr .number
  | string => exact .inr .string
  | list h => exact .inr (.list (coupled_all h))
  | set h => exact .inr (.set (coupled_all h))
  | map h => exact .inr (.map (coupled_fields h))
  | tuple h => exact .inr (.tuple (coupled_all h))
  | object h => exact .inr (.object (coupled_fields h))

theorem sound (ambient : Library.Ambient) (pureOnly : Bool) :
    coupling.Sound ⟨Library.standard ambient, pureOnly⟩ Fragment.concealing where
  of_free := by
    rintro v w (⟨hu, _⟩ | ⟨_, hv, hw⟩)
    · exact hu.elim
    · exact of_isMarked hv hw
  view h := view h.1
  marks {v w} h := by
    have heq := h.1.hasMark_eq
    cases hm : v.hasMark with
    | true => exact .inl ⟨trivial, rfl, heq ▸ hm⟩
    | false => exact .inr ⟨rfl, heq ▸ hm⟩
  leaf {v} _ := refl v
  tuple h := .tuple (h.imp fun _ _ => coupled_iff.1)
  object h := .object (h.mono fun _ _ => coupled_iff.1)
  equal h h' hm _ hm' _ := by
    rw [h.1.eq_of_hasMark hm, h'.1.eq_of_hasMark hm']
    exact .inr rfl
  literal {v} _ := ⟨refl v, fun hu => hu.elim⟩
  call hF hargs hv hw := by
    obtain ⟨f, hf, hv⟩ := callNamed_eq_ok hv
    obtain ⟨g, hg, hw⟩ := callNamed_eq_ok hw
    cases hf.symm.trans hg
    exact conceals_standard hf hF.1 _ _ _ _ _ (hargs.imp fun _ _ => coupled_iff.1) hv hw
  expand hF := absurd hF.2 (by decide)
  unmarked hu := hu.elim
  fit _ _ _ hu := hu.elim

end Value.Indistinct

/-- Evaluated where the values of all names are indistinct, an expression that discloses nothing
has indistinct results, if both evaluations report nothing. -/
theorem Eval.indistinct_of_concealing {ambient : Library.Ambient} {pureOnly : Bool} {e : Expr}
    {env env' : Env} (he : e.Within Fragment.concealing)
    (henv : ∀ name, Option.Rel Indistinct (env.lookup name) (env'.lookup name))
    (h : (eval ⟨Library.standard ambient, pureOnly⟩ env e).diags = [])
    (h' : (eval ⟨Library.standard ambient, pureOnly⟩ env' e).diags = []) :
    Indistinct (eval ⟨Library.standard ambient, pureOnly⟩ env e).result
      (eval ⟨Library.standard ambient, pureOnly⟩ env' e).result := by
  have hcoupled : Indistinct.coupling.Envs env env' :=
    Coupling.Envs.of_rel henv fun _ _ h => Indistinct.coupled_iff.2 h
  have htied := (Indistinct.sound ambient pureOnly).eval_tied e he
  exact (htied env env' _ _ hcoupled (Report.eq_of_diags rfl h) (Report.eq_of_diags rfl h')).1

/-- The two runs of `[for x in xs : x if x != "b"]` keep different numbers of items. -/
theorem Eval.indistinct_of_concealing_filter :
    Indistinct
      (eval ⟨Library.standard ⟨"", fun _ => ""⟩, false⟩
        [("xs", sensitive (list .string [string "a"]))]
        (.forEach default none "x" (.traversal default "xs" []) none (.traversal default "x" [])
          (some (.binary default .ne (.traversal default "x" []) (.literal default (string "b"))))
          false)).result
      (eval ⟨Library.standard ⟨"", fun _ => ""⟩, false⟩
        [("xs", sensitive (list .string [string "b", string "b"]))]
        (.forEach default none "x" (.traversal default "xs" []) none (.traversal default "x" [])
          (some (.binary default .ne (.traversal default "x" []) (.literal default (string "b"))))
          false)).result := by
  refine indistinct_of_concealing ⟨List.forall_mem_nil _, trivial, List.forall_mem_nil _,
    List.forall_mem_nil _, trivial⟩ (fun name => ?_) rfl rfl
  simp only [List.lookup_cons, List.lookup_nil]
  split
  · exact .some .sensitive
  · exact .none

end StaticConfig

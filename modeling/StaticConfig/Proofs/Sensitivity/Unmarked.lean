import StaticConfig.Proofs.Builtin.KeepsLibrary
import StaticConfig.Proofs.Evaluation.Loops

/-!
Marks do not come from nowhere. Evaluated where no name has a marked value, an expression without
conditionals that marks nothing itself has a result without marks.
-/
namespace StaticConfig

open Value Eval Builtin

theorem Builtin.hasMark_of_call {f : Builtin} {pureOnly : Bool} {args : List Value} {v : Value}
    (hf : Keeps (fun v => v.hasMark = false) f) (hargs : anyMark args = false)
    (h : f.call pureOnly args = .ok v) : v.hasMark = false := by
  cases result_of_call h with
  | skipped => rfl
  | undetermined => rw [unknown, hasMark_markIf, hargs]; rfl
  | direct _ hr => exact hf args (anyMark_iff.1 hargs) v hr
  | shielded _ _ hr =>
    rw [hasMark_markIf, hargs, Bool.false_or]
    exact hf _ (Hereditary.unmarked.bareAll args (anyMark_iff.1 hargs)) _ hr

namespace Value.EqUnmarked

/-- Both runs are one, and its values have no marks. -/
def coupling : Coupling where
  rel := EqUnmarked
  unknowns := False
  marks := False
  unmarked := False

theorem coupled_iff {v w : Value} : coupling.Coupled v w ↔ EqUnmarked v w :=
  ⟨fun h => h.1, fun h => ⟨h, fun hu => hu.elim, fun hu => hu.elim⟩⟩

theorem alike_coupled {v w : Value} (h : EqUnmarked v w) : Alike coupling.Coupled v w := by
  obtain ⟨rfl, hm⟩ := h
  exact (alike hm).mono fun _ _ => coupled_iff.2

theorem of_all {vs ws : List Value} (h : List.Forall₂ coupling.Coupled vs ws) :
    vs = ws ∧ anyMark vs = false := by
  induction h with
  | nil => exact ⟨rfl, rfl⟩
  | cons hvw _ ih =>
    obtain ⟨rfl, hm⟩ := coupled_iff.1 hvw
    obtain ⟨rfl, hms⟩ := ih
    exact ⟨rfl, by rw [anyMark, hm, hms, Bool.or_self]⟩

theorem of_fields {as bs : Fields Value} (h : Fields.Related coupling.Coupled as bs) :
    as = bs ∧ anyFieldMark as = false := by
  induction h with
  | nil => exact ⟨rfl, rfl⟩
  | cons hvw _ ih =>
    obtain ⟨rfl, hm⟩ := coupled_iff.1 hvw
    obtain ⟨rfl, hms⟩ := ih
    exact ⟨rfl, by rw [anyFieldMark, hm, hms, Bool.or_self]⟩

theorem sound {ambient : Library.Ambient} {pureOnly : Bool} {F : Fragment}
    (hliteral : ∀ v, F.literal v → v.hasMark = false)
    (hcall : ∀ name expand, F.call name expand →
      name ≠ "sensitive" ∧ name ≠ "provider::terraform::decode_tfvars") :
    coupling.Sound ⟨Library.standard ambient, pureOnly⟩ F where
  of_free := by
    rintro v w (⟨hu, _⟩ | ⟨hc, _⟩)
    · exact hu.elim
    · exact hc.elim
  view h := .inr (alike_coupled h.1)
  marks h := .inr ⟨h.1.2, h.1.1 ▸ h.1.2⟩
  leaf := leaf
  tuple h := by
    obtain ⟨rfl, hm⟩ := of_all h
    exact ⟨rfl, hm⟩
  object h := by
    obtain ⟨rfl, hm⟩ := of_fields h
    exact ⟨rfl, hm⟩
  equal h h' _ _ _ _ := by
    rw [h.1.1, h'.1.1]
    exact .inr rfl
  literal h := ⟨⟨rfl, hliteral _ h⟩, fun hu => hu.elim⟩
  call hF hargs hv hw := by
    obtain ⟨rfl, hm⟩ := of_all hargs
    cases hv.symm.trans hw
    obtain ⟨f, hf, hv⟩ := callNamed_eq_ok hv
    obtain ⟨hmark, hdecode⟩ := hcall _ _ hF
    exact ⟨rfl, hasMark_of_call (Hereditary.unmarked.keeps_standard hf hmark hdecode) hm hv⟩
  expand _ hc := hc
  unmarked hu := hu.elim
  fit _ _ _ hu := hu.elim

end Value.EqUnmarked

theorem Eval.hasMark_of_unmarked {ambient : Library.Ambient} {pureOnly : Bool} {F : Fragment}
    (hliteral : ∀ v, F.literal v → v.hasMark = false)
    (hcall : ∀ name expand, F.call name expand →
      name ≠ "sensitive" ∧ name ≠ "provider::terraform::decode_tfvars")
    {e : Expr} {env : Env} {v : Value} (he : e.Within F)
    (henv : ∀ name v, env.lookup name = some v → v.hasMark = false)
    (h : eval ⟨Library.standard ambient, pureOnly⟩ env e = ⟨v, []⟩) : v.hasMark = false := by
  have hself : EqUnmarked.coupling.Envs env env :=
    Coupling.Envs.of_rel (fun _ => Coupling.Sound.option_refl) fun hv _ h =>
      EqUnmarked.coupled_iff.2 ⟨h, henv _ _ hv⟩
  exact ((EqUnmarked.sound hliteral hcall).eval_tied e he env env v v hself h h).1.2

end StaticConfig

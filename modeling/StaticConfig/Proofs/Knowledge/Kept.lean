import StaticConfig.Proofs.Evaluation.Preserves

/-!
Knowledge is not lost without an error. An evaluation that reports nothing only takes parts of
values that are wholly known, and builds others from them; and all that an evaluation reports are
errors.
-/
namespace StaticConfig

open Value Builtin StaticConfig.Except

/-- The names stand for values that are wholly known. -/
def Env.Known (env : Env) : Prop :=
  ∀ name v, env.lookup name = some v → v.isWhollyKnown = true

/-- Called with values that are wholly known, the functions have such results, if any. -/
def Library.KeepsKnown (library : Library) : Prop :=
  ∀ site name f args v, library site name = some f → (∀ a ∈ args, a.isWhollyKnown = true) →
    f.call false args = .ok v → v.isWhollyKnown = true

/-- An evaluation that reports nothing has a result that is wholly known. -/
theorem Eval.isWhollyKnown_eval {library : Library} (hlib : library.KeepsKnown) (e : Expr)
    {env : Env} {v : Value} (he : e.KnownLiterals) (henv : Env.Known env)
    (h : eval ⟨library, false⟩ env e = ⟨v, []⟩) : v.isWhollyKnown = true :=
  Markable.whollyKnown.eval hlib e (Expr.knownLiterals_iff.1 he) henv h

/-- Evaluated with known values for all names and known literals, an expression has a result that
is wholly known, or an error is reported. Every function of the library, called with values that
are wholly known, has such a result or fails. -/
theorem Eval.known_or_error (ambient : Library.Ambient) :
    (∀ (e : Expr) (env : Env), e.KnownLiterals → Env.Known env →
      (eval ⟨Library.standard ambient, false⟩ env e).result.isWhollyKnown = false →
        Diagnostics.hasErrors (eval ⟨Library.standard ambient, false⟩ env e).diags = true) ∧
    (Library.standard ambient).KeepsKnown := by
  have hlib : (Library.standard ambient).KeepsKnown := Markable.whollyKnown.keeps_nested _
  refine ⟨fun e env he henv hunknown => ?_, hlib⟩
  by_contra hclean
  have hnone : Diagnostics.errors (eval ⟨Library.standard ambient, false⟩ env e).diags = [] := by
    simpa [Diagnostics.hasErrors, Diagnostics.errors, List.filter_eq_nil_iff] using hclean
  rw [isWhollyKnown_eval hlib e he henv (eq_of_no_errors hnone)] at hunknown
  cases hunknown

/-- An item that a tuple does not have, and the length of the tuple. -/
theorem Eval.known_or_error_item :
    Diagnostics.hasErrors (eval ⟨Library.standard ⟨"", fun _ => ""⟩, false⟩
      [("xs", tuple [string "a"])]
      (.index default (.traversal default "xs" []) (.literal default (ofNat 1)))).diags = true ∧
    ∃ f v, Library.standard ⟨"", fun _ => ""⟩ default "length" = some f ∧
      f.call false [tuple [string "a"]] = .ok v ∧ v.isWhollyKnown = true := by
  have he : Expr.KnownLiterals
      (.index default (.traversal default "xs" []) (.literal default (ofNat 1))) :=
    Expr.knownLiterals_iff.2 (Expr.writes_index.2
      ⟨Expr.writes_traversal.2 (List.forall_mem_nil _), Expr.writes_literal.2 rfl⟩)
  have henv : Env.Known [("xs", tuple [string "a"])] :=
    Env.all_nil.cons (P := fun v => v.isWhollyKnown = true) rfl
  obtain ⟨heval, hcall⟩ := known_or_error ⟨"", fun _ => ""⟩
  refine ⟨heval _ _ he henv rfl, _, _, rfl, rfl, ?_⟩
  exact hcall default "length" _ [tuple [string "a"]] _ rfl (by simp [isWhollyKnown, allKnown]) rfl

end StaticConfig

import Mathlib.Algebra.Ring.Parity
import Mathlib.Order.WellFounded
import StaticConfig.Proofs.Termination.Finitary

/-!
Evaluations that end. An expression may read definitions from a text, and the expressions in
these may read others. An evaluation ends if it gets along with the reports of finitely many
expressions whose evaluations end; otherwise there is an endless chain of expressions each of
which depends on the next. A text that reads itself has such a chain.
-/
namespace StaticConfig.Library

open Reading (Finitary)

variable {ambient : Ambient} {pureOnly : Bool} {env : Env} {e : Expr} {r : Report Value}

/-- Whatever evaluates the expressions that are read and agrees with the table, the result is the
same. -/
def Decides {α : Type} (table : List (Expr × Report Value)) (m : Reading → α) (a : α) : Prop :=
  ∀ evaluate : Reading, (∀ p ∈ table, evaluate p.1 = p.2) → m evaluate = a

/-- What an expression of definitions is evaluated to. -/
def constantWith (ambient : Ambient) (e : Expr) (evaluate : Reading) : Report Value :=
  Eval.constant (withEvaluator ambient evaluate) e

/-- What an expression is evaluated to where the names are bound. -/
def evalWith (ambient : Ambient) (pureOnly : Bool) (env : Env) (e : Expr) (evaluate : Reading) :
    Report Value :=
  Eval.eval ⟨withEvaluator ambient evaluate, pureOnly⟩ env e

/-- The evaluation of an expression of definitions ends with the report: finitely many others
that end decide it. -/
inductive ConstantEnds (ambient : Ambient) : Expr → Report Value → Prop
  | intro {e : Expr} {r : Report Value} (table : List (Expr × Report Value))
      (ends : ∀ p ∈ table, ConstantEnds ambient p.1 p.2)
      (decides : Decides table (constantWith ambient e) r) : ConstantEnds ambient e r

/-- The evaluation of an expression ends with the report. -/
def Ends (ambient : Ambient) (pureOnly : Bool) (env : Env) (e : Expr) (r : Report Value) : Prop :=
  ∃ table, (∀ p ∈ table, ConstantEnds ambient p.1 p.2) ∧
    Decides table (evalWith ambient pureOnly env e) r

/-! An evaluation that ends needs only so many levels of nested texts. -/

/-- The reports of finitely many expressions need only so many levels. -/
theorem exists_depth {table : List (Expr × Report Value)}
    (h : ∀ p ∈ table, ∃ n, ∀ m ≥ n, Eval.constant (nested ambient m) p.1 = p.2) :
    ∃ n, ∀ m ≥ n, ∀ p ∈ table, Eval.constant (nested ambient m) p.1 = p.2 := by
  induction table with
  | nil => exact ⟨0, fun _ _ => nofun⟩
  | cons p table ih =>
    rw [List.forall_mem_cons] at h
    obtain ⟨n, hn⟩ := h.1
    obtain ⟨k, hk⟩ := ih h.2
    refine ⟨max n k, fun m hm => List.forall_mem_cons.2 ⟨hn m ?_, hk m ?_⟩⟩
    · omega
    · omega

/-- From some depth on, more levels make no difference. -/
theorem ConstantEnds.exists_depth (h : ConstantEnds ambient e r) :
    ∃ n, ∀ m ≥ n, Eval.constant (nested ambient m) e = r := by
  induction h with
  | intro table ends decides ih =>
    obtain ⟨n, hn⟩ := Library.exists_depth ih
    refine ⟨n + 1, fun m hm => ?_⟩
    obtain ⟨k, rfl⟩ := Nat.exists_eq_add_of_le' (show 1 ≤ m by omega)
    exact decides _ (hn k (by omega))

theorem Ends.exists_depth (h : Ends ambient pureOnly env e r) :
    ∃ n, ∀ m ≥ n, Eval.eval ⟨nested ambient m, pureOnly⟩ env e = r := by
  obtain ⟨table, ends, decides⟩ := h
  obtain ⟨n, hn⟩ := Library.exists_depth fun p hp => (ends p hp).exists_depth
  refine ⟨n + 1, fun m hm => ?_⟩
  obtain ⟨k, rfl⟩ := Nat.exists_eq_add_of_le' (show 1 ≤ m by omega)
  exact decides _ (hn k (by omega))

/-- An evaluation ends with one report only. -/
theorem ConstantEnds.unique {r' : Report Value} (h : ConstantEnds ambient e r)
    (h' : ConstantEnds ambient e r') : r = r' := by
  obtain ⟨n, hn⟩ := h.exists_depth
  obtain ⟨k, hk⟩ := h'.exists_depth
  rw [← hn (max n k) (by omega), hk (max n k) (by omega)]

theorem decode_text (evaluate : Reading) (text : String) :
    Builtin.Definitions.decode evaluate (.string text) =
      match Parser.file ⟨Builtin.Definitions.sourceName, text⟩ with
      | .error e => .error (.badDefinitions e)
      | .ok body =>
        match body.blocks with
        | block :: _ => .error (.unexpectedBlock block.type)
        | [] => (Builtin.Definitions.readEntries evaluate body.attributes).map .object :=
  rfl

/-- Reading a text with one definition. -/
theorem callNamed_decoding {text name : String} {body : Body} {a : Attribute}
    {evaluate : Reading} {v : Value}
    (hbody : Parser.file ⟨Builtin.Definitions.sourceName, text⟩ = .ok body)
    (hblocks : body.blocks = []) (hattributes : body.attributes = [(name, a)])
    (hread : evaluate a.expr = ⟨v, []⟩) (span : Span) :
    Eval.callNamed ⟨withEvaluator ambient evaluate, pureOnly⟩ decoding [.string text] span =
      .ok (.object [(name, v)]) := by
  have hdecode : Builtin.Definitions.decode evaluate (.string text) =
      .ok (.object [(name, v)]) := by
    rw [decode_text, hbody]
    simp only [hblocks, hattributes, Builtin.Definitions.readEntries, hread]
    rfl
  have hcall : (Builtin.unary .dynamic (Builtin.Definitions.decode evaluate)).call pureOnly
      [.string text] = .ok (.object [(name, v)]) := by
    change (Builtin.Definitions.decode evaluate (.string text)).map _ = _
    rw [hdecode]
    rfl
  simp only [Eval.callNamed, withEvaluator_decoding, hcall]

end StaticConfig.Library

import StaticConfig.Proofs.Builtin.KeepsLibrary
import StaticConfig.Proofs.Evaluation.Preserves
import StaticConfig.Proofs.Sensitivity.Unmarked
import StaticConfig.Proofs.Termination.Finitary

/-!
What calls and conditionals pass on of the marks of their operands. A call has the marks of its
arguments at any depth, unless expanding the last one loses a mark, and a conditional those of its
condition and of the branch that is taken, but not those of branches that may be.
-/
namespace StaticConfig

open Value StaticConfig.Except

namespace Value

theorem anyMark_append (vs ws : List Value) : anyMark (vs ++ ws) = (anyMark vs || anyMark ws) := by
  induction vs with
  | nil => rfl
  | cons v vs ih => rw [List.cons_append, anyMark, anyMark, ih, Bool.or_assoc]

theorem hasMark_of_items? {v : Value} {items : List Value} (h : v.items? = some items) :
    v.hasMark = anyMark items := by
  cases v with
  | list e vs =>
    cases h
    rfl
  | set e vs =>
    cases h
    rfl
  | tuple vs =>
    cases h
    rfl
  | _ => cases h

/-- The marks of items that each take over the mark of their collection. -/
theorem anyMark_map_markIf {v : Value} {items : List Value} (h : v.unmarked.items? = some items) :
    anyMark (items.map (markIf v.isMarked)) = (v.hasMark && (!v.isMarked || !items.isEmpty)) := by
  cases hm : v.isMarked with
  | false =>
    rw [unmarked_of_isMarked_eq_false hm] at h
    rw [hasMark_of_items? h, show markIf false = id from rfl, List.map_id]
    simp
  | true =>
    rw [hasMark_of_isMarked hm]
    cases items with
    | nil => rfl
    | cons w ws =>
      rw [List.map_cons, anyMark, hasMark_markIf]
      rfl

theorem isMarked_of_items? {v : Value} {items : List Value} (h : v.items? = some items) :
    v.isMarked = false := by
  cases v <;> first | rfl | cases h

theorem isMarked_of_entries? {v : Value} {entries : Fields Value}
    (h : v.entries? = some entries) : v.isMarked = false := by
  cases v <;> first | rfl | cases h

/-- A conversion keeps the mark at the top and adds none. -/
theorem isMarked_of_convert {v r : Value} {want : Ty} (h : v.convert want = .ok r) :
    r.isMarked = v.isMarked := by
  cases converts_of_convert v h with
  | sensitive _ => exact isMarked_mark _
  | dynamic _ => rfl
  | null _ => rfl
  | unknown _ _ => rfl
  | primitive hwant hr =>
    have hv : v.isMarked = false := by
      cases v with
      | sensitive v => cases want <;> first | exact absurd rfl hwant | cases hr
      | _ => rfl
    rw [hv]
    rcases convertPrimitive_cases hr with ⟨hdyn, _⟩ | ⟨_, b, rfl⟩ | ⟨_, n, rfl⟩ | ⟨_, s, rfl⟩
    · exact absurd hdyn hwant
    · rfl
    · rfl
    · rfl
  | list hitems _ _ _ => exact (isMarked_of_items? hitems).symm
  | set hitems _ _ _ => exact (isMarked_of_items? hitems).symm
  | tuple hitems _ _ _ => exact (isMarked_of_items? hitems).symm
  | map hentries _ _ _ => exact (isMarked_of_entries? hentries).symm
  | object hentries _ _ _ => exact (isMarked_of_entries? hentries).symm

end Value

/-! Calls. -/

namespace Eval

/-- What expanding the last argument gives. -/
inductive Expanded : List Value → Option (List Value) → Prop
  | none : Expanded [] (some [])
  | unknown (before : List Value) {last : Value} {t : Ty} (h : last.unmarked = .unknown t) :
      Expanded (before ++ [last]) Option.none
  | items (before : List Value) {last : Value} {items : List Value}
      (h : last.unmarked.items? = some items) :
      Expanded (before ++ [last]) (some (before ++ items.map (markIf last.isMarked)))

theorem expanded_of_expandLast {span : Span} : ∀ {args : List Value} {x : Option (List Value)},
    expandLast span args = .ok x → Expanded args x
  | [], _, h => by
    cases h
    exact .none
  | [last], _, h => by
    simp only [expandLast] at h
    split at h
    · next hlast =>
      cases h
      exact .items [] (by rw [hlast]; rfl)
    · next hlast =>
      cases h
      exact .items [] (by rw [hlast]; rfl)
    · next hlast =>
      cases h
      exact .items [] (by rw [hlast]; rfl)
    · next hlast =>
      cases h
      exact .unknown [] hlast
    · cases h
    · cases h
  | v :: w :: rest, _, h => by
    obtain ⟨more, hmore, h⟩ := bind_eq_ok.1 h
    have hrest := expanded_of_expandLast hmore
    generalize hargs : w :: rest = args at hrest
    cases hrest with
    | none => cases hargs
    | unknown before hlast =>
      cases h
      exact .unknown (v :: before) hlast
    | items before hlast =>
      cases h
      exact .items (v :: before) hlast

end Eval

namespace Library

open Builtin

variable {ambient : Ambient} {site : Span} {name : String} {f : Builtin}

theorem isMarked_decoded {evaluate : Reading} {args : List Value} {v : Value}
    (h : (unary .dynamic (Definitions.decode evaluate)).run args = .ok v) : v.isMarked = false := by
  cases args with
  | nil => cases h
  | cons a as =>
    change Definitions.decode evaluate a = .ok v at h
    unfold Definitions.decode at h
    split at h
    · cases h
    obtain ⟨text, _, h⟩ := bind_eq_ok.1 h
    split at h
    · cases h
    split at h
    · cases h
    · obtain ⟨entries, _, rfl⟩ := map_eq_ok.1 h
      rfl

/-- A function that is given no mark has a result that is not marked itself. -/
theorem isMarked_of_standard {pureOnly : Bool} {args : List Value} {v : Value}
    (h : standard ambient site name = some f) (hname : name ∉ seeing)
    (hargs : anyMark args = false) (hv : f.call pureOnly args = .ok v) : v.isMarked = false := by
  have hmark : name ≠ "sensitive" := by
    rintro rfl
    exact hname (by decide)
  by_cases hdecode : name = decoding
  · subst hdecode
    cases (withEvaluator_decoding ambient (evaluator ambient) site).symm.trans h
    cases result_of_call hv with
    | skipped => rfl
    | undetermined => rw [Builtin.unknown, isMarked_markIf, hargs]; rfl
    | direct hm => cases hm
    | shielded _ _ hr =>
      rw [isMarked_markIf, hargs, Bool.false_or]
      exact isMarked_decoded hr
  · exact isMarked_of_hasMark (hasMark_of_call (Hereditary.unmarked.keeps_standard h hmark hdecode)
      hargs hv)

end Library

namespace Eval

section Calls

variable {ambient : Library.Ambient} {pureOnly : Bool} {env : Env} {span : Span} {name : String}

/-- A call passes on the marks of its arguments and adds none. -/
theorem isMarked_callNamed {args : List Value} {v : Value} (hname : name ∉ Library.seeing)
    (h : callNamed ⟨Library.standard ambient, pureOnly⟩ name args span = .ok v) :
    v.isMarked = anyMark args := by
  obtain ⟨f, hf, hcall⟩ := callNamed_eq_ok h
  cases hargs : anyMark args with
  | true =>
    obtain ⟨hm, himpure⟩ := Library.shields_standard hf hname
    exact Builtin.isMarked_of_call hm himpure hargs hcall
  | false => exact Library.isMarked_of_standard hf hname hargs hcall

/-- Expanding the last argument loses a mark: that of an argument before it where it is unknown, or
its own where it is empty. -/
def LosesMark (args : List Value) : Prop :=
  ∃ last, args.getLast? = some last ∧
    ((last.isKnown = false ∧ last.isMarked = false ∧ anyMark args.dropLast = true) ∨
      (last.unmarked.items? = some [] ∧ last.isMarked = true ∧ anyMark args.dropLast = false))

theorem losesMark_concat {before : List Value} {last : Value} :
    LosesMark (before ++ [last]) ↔
      (last.isKnown = false ∧ last.isMarked = false ∧ anyMark before = true) ∨
        (last.unmarked.items? = some [] ∧ last.isMarked = true ∧ anyMark before = false) := by
  simp [LosesMark]

theorem anyMark_concat (before : List Value) (last : Value) :
    anyMark (before ++ [last]) = (anyMark before || last.hasMark) := by
  rw [anyMark_append]
  simp [anyMark]

/-- Where the last argument is unknown, its own mark is kept. -/
theorem keeps_unknown_iff {before : List Value} {last : Value} {t : Ty}
    (h : last.unmarked = .unknown t) :
    (anyMark (before ++ [last]) = true → last.isMarked = true) ↔ ¬LosesMark (before ++ [last]) := by
  have hknown : last.isKnown = false := by
    rw [← isKnown_unmarked, h]
    rfl
  have hitems : last.unmarked.items? ≠ some [] := by
    rw [h]
    nofun
  have hmark : last.hasMark = last.isMarked := by
    cases last with
    | sensitive v => rfl
    | unknown t => rfl
    | _ => cases h
  rw [losesMark_concat, anyMark_concat, hmark]
  cases last.isMarked <;> simp [hknown, hitems]

/-- Where the last argument has items, their marks and those of the other arguments are kept, and
its own mark where there is an item to carry it. -/
theorem keeps_items_iff {before items : List Value} {last : Value}
    (h : last.unmarked.items? = some items) :
    (anyMark (before ++ [last]) = true →
      anyMark (before ++ items.map (markIf last.isMarked)) = true) ↔
        ¬LosesMark (before ++ [last]) := by
  have hknown : last.isKnown = true := by
    rw [← isKnown_unmarked]
    generalize last.unmarked = u at h
    cases u <;> first | rfl | cases h
  rw [losesMark_concat, anyMark_concat, anyMark_append, anyMark_map_markIf h, h]
  cases hm : last.isMarked with
  | false => simp [hknown]
  | true =>
    rw [hasMark_of_isMarked hm]
    cases items <;> simp [hknown]

/-- The result of a call carries the marks that are anywhere in its arguments, unless the last one
is expanded and a mark is lost by it. -/
theorem carries_call_iff {args : List Expr} {expand : Bool} (hname : name ∉ Library.seeing)
    (h : Diagnostics.errors
      (eval ⟨Library.standard ambient, pureOnly⟩ env (.call span name args expand)).diags = []) :
    (anyMark (evalAll ⟨Library.standard ambient, pureOnly⟩ env args).result = true →
        (eval ⟨Library.standard ambient, pureOnly⟩ env
          (.call span name args expand)).result.isMarked = true) ↔
      ¬(expand = true ∧
        LosesMark (evalAll ⟨Library.standard ambient, pureOnly⟩ env args).result) := by
  have heval := eq_of_no_errors h
  generalize (eval ⟨Library.standard ambient, pureOnly⟩ env
    (.call span name args expand)).result = v at heval
  cases expand with
  | false =>
    obtain ⟨vs, hvs, hcall⟩ := eval_call_eq_clean.1 heval
    rw [hvs, isMarked_callNamed hname hcall]
    simp
  | true =>
    obtain ⟨vs, x, hvs, hx, hv⟩ := eval_expanded_eq_clean.1 heval
    rw [hvs]
    simp only [true_and]
    cases expanded_of_expandLast hx with
    | none =>
      obtain ⟨hnone, _⟩ | ⟨vs', hsome, hcall⟩ := hv
      · cases hnone
      · cases hsome
        simp [LosesMark, anyMark]
    | unknown before hlast =>
      obtain ⟨_, rfl⟩ | ⟨vs', hsome, _⟩ := hv
      · rw [← keeps_unknown_iff hlast, isMarked_markIf]
        simp [dynamic, isMarked]
      · cases hsome
    | items before hlast =>
      obtain ⟨hnone, _⟩ | ⟨vs', hsome, hcall⟩ := hv
      · cases hnone
      · cases hsome
        rw [isMarked_callNamed hname hcall]
        exact keeps_items_iff hlast

/-- The call `max(a, b...)`. -/
def spread : Expr :=
  .call default "max" [.traversal default "a" [], .traversal default "b" []] true

def spreadEnv (a b : Value) : Env := [("a", a), ("b", b)]

/-- Of `max(1, [2]...)`, the marked list has an item to carry its mark. -/
theorem carries_call_iff_spread :
    let s : Setting := ⟨Library.standard ⟨"", fun _ => ""⟩, false⟩
    let env := spreadEnv (.ofNat 1) (.sensitive (.list .number [.ofNat 2]))
    "max" ∉ Library.seeing ∧ Diagnostics.errors (eval s env spread).diags = [] ∧
      (eval s env spread).result.isMarked = true := by
  intro s env
  have hname : "max" ∉ Library.seeing := by decide
  have h : Diagnostics.errors (eval s env spread).diags = [] := rfl
  refine ⟨hname, h, (carries_call_iff hname h).2 ?_ rfl⟩
  rintro ⟨-, last, hlast, hlost⟩
  cases hlast
  rcases hlost with ⟨hknown, -⟩ | ⟨hitems, -⟩
  · cases hknown
  · cases hitems

/-- Of `max(a, b...)`, the mark of `a` is lost where `b` is unknown, and that of `b` where `b` is
empty. -/
theorem not_carries_call_spread :
    let s : Setting := ⟨Library.standard ⟨"", fun _ => ""⟩, false⟩
    let lost (env : Env) := Diagnostics.errors (eval s env spread).diags = [] ∧
      anyMark (evalAll s env [.traversal default "a" [], .traversal default "b" []]).result = true ∧
      (eval s env spread).result.isMarked = false
    lost (spreadEnv (.sensitive (.ofNat 1)) (.unknown (.list .number))) ∧
      lost (spreadEnv (.ofNat 1) (.sensitive (.list .number []))) :=
  ⟨⟨rfl, rfl, rfl⟩, rfl, rfl, rfl⟩

end Calls

/-! Conditionals. -/

variable {s : Setting} {env : Env} {span : Span} {v : Value}

/-- A condition that is accepted decides exactly if it is known. -/
theorem isSome_of_truth {c : Value} {d : Option Bool} (hnull : c.bare.isNull = false)
    (h : truth c.bare = .ok d) : d.isSome = c.isKnown := by
  rw [← isKnown_bare]
  have hm := isMarked_of_hasMark (hasMark_bare c)
  generalize c.bare = u at hm hnull h
  obtain ⟨r, hr, rfl⟩ := map_eq_ok.1 h
  cases u with
  | sensitive u => cases hm
  | null t => cases hnull
  | unknown t =>
    rw [convert, if_neg (by decide)] at hr
    split at hr
    · cases hr
      rfl
    · cases hr
  | bool b =>
    cases hr
    rfl
  | string s =>
    rcases convertPrimitive_cases hr with ⟨hdyn, _⟩ | ⟨_, b, rfl⟩ | ⟨hnum, _⟩ | ⟨hstr, _⟩
    · cases hdyn
    · rfl
    · cases hnum
    · cases hstr
  | _ => cases hr

/-- The marks at the top of the result are those of the condition, at any depth, and those at the
top of the branch that is taken, if one is. -/
theorem isMarked_conditional {cond yes no : Expr}
    (h : eval s env (.conditional span cond yes no) = ⟨v, []⟩) :
    ∃ d, truth (eval s env cond).result.bare = .ok d ∧
      d.isSome = (eval s env cond).result.isKnown ∧ (d = none → v.isKnown = false) ∧
      v.isMarked = ((eval s env cond).result.hasMark || d.any fun b =>
        (if b then (eval s env yes).result else (eval s env no).result).isMarked) := by
  obtain ⟨c, hc, h⟩ := eval_conditional_eq_clean.1 h
  obtain ⟨d, t, hnull, hd, -, hopen, htaken⟩ := gives_chooseBranch h
  rw [hc]
  refine ⟨d, hd, isSome_of_truth hnull hd, ?_, ?_⟩
  · intro hnone
    obtain ⟨-, -, rfl⟩ := hopen hnone
    rw [isKnown_markIf]
    rfl
  cases d with
  | none =>
    obtain ⟨-, -, rfl⟩ := hopen rfl
    rw [isMarked_markIf]
    rfl
  | some b =>
    obtain ⟨-, rfl⟩ := htaken b rfl
    have hconverted (u : Value) : ((u.convert? t).getD u).isMarked = u.isMarked := by
      cases hu : u.convert? t with
      | none => rfl
      | some r => exact isMarked_of_convert (convert?_eq_some_iff.1 hu)
    rw [isMarked_markIf, hconverted, Option.any_some]
    cases b <;> rfl

/-- The value of a conditional carries the marks of all that it may come from: those of the
condition, those at the top of the branch that is taken, and where the condition does not decide,
those at the top of both branches. -/
structure CarriesMarks (c yes no v : Value) : Prop where
  condition : c.hasMark = true → v.isMarked = true
  decided : c.isKnown = true → ∃ b, truth c.bare = .ok (some b) ∧
    ((if b then yes else no).isMarked = true → v.isMarked = true)
  undecided : c.isKnown = false →
    v.isKnown = false ∧ (yes.isMarked = true ∨ no.isMarked = true → v.isMarked = true)

theorem carriesMarks_of_decided {c yes no : Value} {b : Bool} (hd : truth c.bare = .ok (some b))
    (hknown : c.isKnown = true)
    (hv : v.isMarked = (c.hasMark || (if b then yes else no).isMarked)) :
    CarriesMarks c yes no v where
  condition hc := by rw [hv, hc, Bool.true_or]
  decided _ := ⟨b, hd, fun hbranch => by rw [hv, hbranch, Bool.or_true]⟩
  undecided hunknown := by
    rw [hknown] at hunknown
    cases hunknown

theorem carriesMarks_iff_of_undecided {c yes no : Value} (hknown : c.isKnown = false)
    (hunknown : v.isKnown = false) (hv : v.isMarked = c.hasMark) :
    CarriesMarks c yes no v ↔
      c.hasMark = true ∨ (yes.isMarked = false ∧ no.isMarked = false) := by
  constructor
  · intro h
    have hbranch := (h.undecided hknown).2
    rw [hv] at hbranch
    rw [or_iff_not_imp_left]
    intro hc
    exact ⟨Bool.eq_false_iff.2 fun hyes => hc (hbranch (.inl hyes)),
      Bool.eq_false_iff.2 fun hno => hc (hbranch (.inr hno))⟩
  · intro h
    refine ⟨hv.trans, fun hdecided => ?_, fun _ => ⟨hunknown, fun hbranch => ?_⟩⟩
    · rw [hknown] at hdecided
      cases hdecided
    · rcases h with hc | ⟨hyes, hno⟩
      · exact hv.trans hc
      · rw [hyes, hno] at hbranch
        rcases hbranch with h | h <;> cases h

/-- Only where the condition decides nothing may a mark of a branch be lost. -/
theorem carriesMarks_conditional_iff {cond yes no : Expr}
    (h : Diagnostics.errors (eval s env (.conditional span cond yes no)).diags = []) :
    CarriesMarks (eval s env cond).result (eval s env yes).result (eval s env no).result
        (eval s env (.conditional span cond yes no)).result ↔
      (eval s env cond).result.isKnown = true ∨ (eval s env cond).result.hasMark = true ∨
        ((eval s env yes).result.isMarked = false ∧ (eval s env no).result.isMarked = false) := by
  obtain ⟨d, hd, hknown, hunknown, hv⟩ := isMarked_conditional (eq_of_no_errors h)
  cases d with
  | some b => exact iff_of_true (carriesMarks_of_decided hd hknown.symm hv) (.inl hknown.symm)
  | none =>
    rw [Option.any_none, Bool.or_false] at hv
    rw [carriesMarks_iff_of_undecided hknown.symm (hunknown rfl) hv, ← hknown]
    simp

/-- The conditional `x ? y : "b"`. -/
def choice : Expr :=
  .conditional default (.traversal default "x" []) (.traversal default "y" [])
    (.literal default (.string "b"))

def choiceEnv (x : Value) : Env := [("x", x), ("y", .sensitive (.string "a"))]

theorem eval_choice (s : Setting) :
    eval s (choiceEnv (.bool true)) choice = ⟨.sensitive (.string "a"), []⟩ ∧
      eval s (choiceEnv (.unknown .bool)) choice = ⟨.unknown .string, []⟩ := by
  have hunify : Ty.unify [(Value.sensitive (.string "a")).ty, (Value.string "b").ty] =
      some .string := by
    rw [Ty.unify]
    rfl
  have hchoose {x v : Value}
      (h : Gives (chooseBranch x default default ⟨.sensitive (.string "a"), []⟩
        ⟨.string "b", []⟩) v) : eval s (choiceEnv x) choice = ⟨v, []⟩ :=
    eval_conditional_eq_clean.2 ⟨x, rfl, h⟩
  constructor <;>
  · refine hchoose ?_
    unfold chooseBranch
    dsimp only
    rw [hunify]
    rfl

/-- Where `x` is true, the marked branch is taken. -/
theorem carriesMarks_conditional_iff_taken :
    let s : Setting := ⟨Library.standard ⟨"", fun _ => ""⟩, false⟩
    let value (e : Expr) := (eval s (choiceEnv (.bool true)) e).result
    Diagnostics.errors (eval s (choiceEnv (.bool true)) choice).diags = [] ∧
      CarriesMarks (value (.traversal default "x" [])) (value (.traversal default "y" []))
        (value (.literal default (.string "b"))) (value choice) := by
  intro s value
  have h : Diagnostics.errors (eval s (choiceEnv (.bool true)) choice).diags = [] := by
    rw [(eval_choice s).1]
    rfl
  exact ⟨h, (carriesMarks_conditional_iff h).2 (.inl rfl)⟩

/-- Where `x` is unknown, nothing tells that the value may be the marked one. -/
theorem not_carriesMarks_undecided :
    let s : Setting := ⟨Library.standard ⟨"", fun _ => ""⟩, false⟩
    let value (e : Expr) := (eval s (choiceEnv (.unknown .bool)) e).result
    Diagnostics.errors (eval s (choiceEnv (.unknown .bool)) choice).diags = [] ∧
      ¬CarriesMarks (value (.traversal default "x" [])) (value (.traversal default "y" []))
        (value (.literal default (.string "b"))) (value choice) := by
  intro s value
  have hvalue : value choice = .unknown .string := congrArg Report.result (eval_choice s).2
  rw [(eval_choice s).2, hvalue]
  refine ⟨rfl, fun h => ?_⟩
  cases (h.undecided rfl).2 (.inl rfl)

end Eval

end StaticConfig

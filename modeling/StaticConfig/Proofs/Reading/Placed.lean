import Mathlib.Data.List.Infix
import StaticConfig.Proofs.Evaluation.Literals
import StaticConfig.Proofs.Reading.Stands

/-!
How an expression stands in its source. All ranges in it start at tokens, operands bind more tightly
than the operator between them, and between two operands there is nothing else than this operator.
-/
namespace StaticConfig

open StaticConfig.Lexer (Read Beside Filler)

/-- The ranges start at the same place. -/
structure Span.SameStart (a b : Span) : Prop where
  source : a.source = b.source
  line : a.line = b.line
  col : a.col = b.col
  start : a.start = b.start

namespace Span.SameStart

theorem refl (a : Span) : a.SameStart a := ⟨rfl, rfl, rfl, rfl⟩

theorem through {a b : Span} (h : a.SameStart b) (c : Span) : (a.through c).SameStart b :=
  ⟨h.source, h.line, h.col, h.start⟩

theorem trans {a b c : Span} (h : a.SameStart b) (hc : b.SameStart c) : a.SameStart c :=
  ⟨h.source.trans hc.source, h.line.trans hc.line, h.col.trans hc.col, h.start.trans hc.start⟩

end Span.SameStart

namespace Token

/-- The range of the token as it is written, with its quotes. -/
def outer (t : Token) : Span :=
  if t.kind = .string then Parser.withQuotes t.span else t.span

variable {t : Token}

theorem outer_of_ne (h : t.kind ≠ .string) : t.outer = t.span := if_neg h

theorem outer_start (t : Token) : t.outer.start = t.writtenStart := by
  unfold outer writtenStart
  split
  · rfl
  · rfl

theorem outer_stop (t : Token) : t.outer.stop = t.writtenStop := by
  unfold outer writtenStop
  split
  · rfl
  · rfl

theorem isSymbol_iff {text : String} :
    t.isSymbol text = true ↔ t.kind = .symbol ∧ t.text = text := by
  simp [isSymbol]

theorem solid_of_kind {kind : TokenKind} (h : t.kind = kind) (hline : kind ≠ .newline)
    (hend : kind ≠ .eof) : t.Solid := by
  subst h
  exact ⟨hline, hend⟩

theorem writtenStop_of_ne (h : t.kind ≠ .string) : t.writtenStop = t.span.stop := if_neg h

theorem ne_string_of_isSymbol {text : String} (h : t.isSymbol text = true) : t.kind ≠ .string := by
  rw [(isSymbol_iff.1 h).1]
  decide

/-- The range from a token to a later one. -/
theorem through {u : Token} (ht : t.kind ≠ .string) (hu : u.kind ≠ .string)
    (h : t.writtenStop ≤ u.writtenStop) :
    (t.span.through u.span).SameStart t.outer ∧ (t.span.through u.span).stop = u.writtenStop := by
  rw [writtenStop_of_ne ht, writtenStop_of_ne hu] at h
  rw [writtenStop_of_ne hu, outer_of_ne ht]
  exact ⟨(Span.SameStart.refl _).through _, Nat.max_eq_left h⟩

end Token

/-- The range starts at a token that a lexer of the source has read after those before it, or behind
the quote that opens the token. -/
def Span.StartsAfter (source : Source) (back : List Char) (before : List Token) (span : Span) :
    Prop :=
  ∃ t after, Read source back before t after ∧ t.Solid ∧
    (span.SameStart t.outer ∨ span.SameStart t.span)

/-- The range starts at some token of the source. -/
def Span.Placed (source : Source) (span : Span) : Prop :=
  ∃ back before, span.StartsAfter source back before

theorem Span.Placed.congr {source : Source} {a b : Span} (hb : b.Placed source)
    (h : a.SameStart b) : a.Placed source := by
  obtain ⟨back, before, t, after, hread, hsolid, hstart⟩ := hb
  exact ⟨back, before, t, after, hread, hsolid, hstart.imp h.trans h.trans⟩

theorem Token.placed_through {source : Source} {t : Token} (h : t.outer.Placed source)
    (ht : t.kind ≠ .string) (c : Span) : (t.span.through c).Placed source := by
  rw [outer_of_ne ht] at h
  exact h.congr (.through (.refl _) c)

/-- Between the two ranges there is only the text, apart from filler. -/
def Source.Between (source : Source) (left right : Span) (text : String) : Prop :=
  ∃ front back, Filler front ∧ Filler back ∧
    source.Segment left.stop right.start (front ++ text.toList ++ back)

/-! How tightly expressions bind. -/

/-- The level of precedence of the operator, loosest first. -/
def BinaryOp.level : BinaryOp → Nat
  | or => 0
  | and => 1
  | eq | ne => 2
  | lt | le | gt | ge => 3
  | add | sub => 4
  | mul | div | mod => 5

/-- The level of an operator, by the levels that bind more tightly. -/
theorem BinaryOp.level_of_suffix {ops : List BinaryOp} {tighter : List (List BinaryOp)}
    (h : ops :: tighter <:+ levels) {op : BinaryOp} (hop : op ∈ ops) :
    op.level + tighter.length + 1 = levels.length := by
  have hall : ∀ suffix ∈ levels.tails, ∀ ops ∈ suffix.head?, ∀ op ∈ ops,
      op.level + suffix.tail.length + 1 = levels.length := by
    decide
  exact hall _ ((List.mem_tails _ _).2 h) ops rfl op hop

theorem BinaryOp.level_lt (op : BinaryOp) : op.level < levels.length := by
  cases op <;> decide

namespace Expr

def operator? : Expr → Option BinaryOp
  | binary _ op _ _ => some op
  | _ => none

def isUnary : Expr → Bool
  | unary _ _ _ => true
  | _ => false

def isConditional : Expr → Bool
  | conditional _ _ _ _ => true
  | _ => false

/-- The expression that steps, an index or a splat follow. -/
def subject? : Expr → Option Expr
  | relative _ source _ => some source
  | index _ collection _ => some collection
  | splat _ source _ => some source
  | _ => none

/-- How tightly the expression binds: a conditional least, then binary operators by level, unary
operators, and whatever needs no parentheses anywhere. -/
def rank : Expr → Nat
  | conditional _ _ _ _ => 0
  | binary _ op _ _ => op.level + 1
  | unary _ _ _ => BinaryOp.levels.length + 1
  | _ => BinaryOp.levels.length + 2

theorem isConditional_of_rank {e : Expr} (h : 0 < e.rank) : e.isConditional = false := by
  cases e with
  | conditional => exact absurd h (Nat.lt_irrefl 0)
  | _ => rfl

theorem le_level_of_rank {e : Expr} {n : Nat} (h : n < e.rank) :
    ∀ op ∈ e.operator?, n ≤ op.level := by
  cases e with
  | binary span op lhs rhs =>
    rintro _ ⟨⟩
    exact Nat.le_of_lt_succ h
  | _ => nofun

theorem operator?_of_rank {e : Expr} (h : BinaryOp.levels.length < e.rank) :
    e.operator? = none := by
  cases e with
  | binary span op lhs rhs =>
    have hlevel := op.level_lt
    rw [rank] at h
    omega
  | _ => rfl

theorem isUnary_of_rank {e : Expr} (h : BinaryOp.levels.length + 1 < e.rank) :
    e.isUnary = false := by
  cases e with
  | unary => exact absurd h (Nat.lt_irrefl _)
  | _ => rfl

/-- The parts of the expression bind tightly enough, and operands are next to their operator. -/
def Arranged (source : Source) : Expr → Prop
  | binary _ op lhs rhs => op.level < lhs.rank ∧ op.level + 1 < rhs.rank ∧
    source.Between lhs.span rhs.span op.text
  | unary _ _ operand => BinaryOp.levels.length < operand.rank
  | conditional _ cond yes no => 0 < cond.rank ∧ source.Between cond.span yes.span "?" ∧
    source.Between yes.span no.span ":"
  | e => ∀ x ∈ e.subject?, BinaryOp.levels.length + 1 < x.rank

/-- The ranges of the bare names that are keys of the object. -/
def nameSpans : Expr → List Span
  | object _ items => items.filterMap fun item =>
    match item.1 with
    | .name span _ => some span
    | .expr _ => none
  | _ => []

/-- All ranges in the expression: of its parts, of their steps and of the names of attributes. -/
def spans (e : Expr) : List Span :=
  e.parts.flatMap fun p => p.span :: p.steps.map Step.span ++ p.nameSpans

/-- The expression itself is in order, whatever its parts are. -/
structure Fine (source : Source) (e : Expr) : Prop where
  placed : e.span.Placed source
  steps : ∀ step ∈ e.steps, step.span.Placed source
  names : ∀ span ∈ e.nameSpans, span.Placed source
  arranged : e.Arranged source

/-- The expression and all its parts are in order. -/
def Sound (source : Source) (e : Expr) : Prop := ∀ p ∈ e.parts, p.Fine source

/-- The key of an attribute is in order: a name, or an expression. -/
def SoundKey (source : Source) (key : ObjectKey) : Prop :=
  (∀ span s, key = .name span s → span.Placed source) ∧ ∀ e, key = .expr e → e.Sound source

/-! Expressions that are put together of such that are in order. -/

section Constructors

variable {source : Source} {span : Span}

theorem Sound.fine {e : Expr} (h : e.Sound source) : e.Fine source := h e (mem_parts_self e)

/-- An expression adds itself to the parts inside. -/
theorem sound_of_inside {e : Expr} {inside : List Expr} (h : e.parts = e :: inside)
    (he : e.Fine source) (hinside : ∀ p ∈ inside, p.Fine source) : e.Sound source := by
  unfold Sound
  rw [h]
  exact List.forall_mem_cons.2 ⟨he, hinside⟩

theorem sound_literal {v : Value} (h : span.Placed source) : (literal span v).Sound source :=
  sound_of_inside rfl ⟨h, nofun, nofun, nofun⟩ nofun

theorem sound_name {root : String} (h : span.Placed source) :
    (traversal span root []).Sound source :=
  sound_of_inside rfl ⟨h, nofun, nofun, nofun⟩ nofun

theorem sound_template {parts : List TemplatePart} (h : span.Placed source)
    (hparts : ∀ e, .interp e ∈ parts → e.Sound source) : (template span parts).Sound source :=
  sound_of_inside rfl ⟨h, nofun, nofun, nofun⟩ (forall_partsOfTemplate.2 hparts)

theorem sound_tuple {items : List Expr} (h : span.Placed source)
    (hitems : ∀ e ∈ items, e.Sound source) : (tuple span items).Sound source :=
  sound_of_inside rfl ⟨h, nofun, nofun, nofun⟩ (forall_partsOfAll.2 hitems)

theorem sound_call {name : String} {args : List Expr} {expand : Bool} (h : span.Placed source)
    (hargs : ∀ e ∈ args, e.Sound source) : (call span name args expand).Sound source :=
  sound_of_inside rfl ⟨h, nofun, nofun, nofun⟩ (forall_partsOfAll.2 hargs)

theorem sound_parens {inner : Expr} (h : span.Placed source) (hinner : inner.Sound source) :
    (parens span inner).Sound source :=
  sound_of_inside rfl ⟨h, nofun, nofun, nofun⟩ hinner

theorem sound_object {items : List (ObjectKey × Expr)} (h : span.Placed source)
    (hitems : ∀ item ∈ items, SoundKey source item.1 ∧ item.2.Sound source) :
    (object span items).Sound source := by
  refine sound_of_inside rfl ⟨h, nofun, fun name hname => ?_, nofun⟩
    (forall_partsOfItems.2 fun item hitem => ?_)
  · obtain ⟨item, hitem, hname⟩ := List.mem_filterMap.1 hname
    split at hname
    · next span s hkey =>
      cases hname
      exact (hitems item hitem).1.1 _ s hkey
    · cases hname
  · obtain ⟨hkey, hvalue⟩ := hitems item hitem
    exact ⟨hkey.2, hvalue⟩

theorem sound_forEach {keyVar : Option String} {valueVar : String} {collection : Expr}
    {key : Option Expr} {value : Expr} {cond : Option Expr} {group : Bool}
    (h : span.Placed source) (hcollection : collection.Sound source)
    (hkey : ∀ e ∈ key, e.Sound source) (hvalue : value.Sound source)
    (hcond : ∀ e ∈ cond, e.Sound source) :
    (forEach span keyVar valueVar collection key value cond group).Sound source := by
  refine sound_of_inside rfl ⟨h, nofun, nofun, nofun⟩ ?_
  simp only [List.forall_mem_append]
  exact ⟨⟨⟨hcollection, forall_partsOfOption.2 hkey⟩, hvalue⟩, forall_partsOfOption.2 hcond⟩

theorem sound_unary {op : UnaryOp} {operand : Expr} (h : span.Placed source)
    (hrank : BinaryOp.levels.length < operand.rank) (hoperand : operand.Sound source) :
    (unary span op operand).Sound source :=
  sound_of_inside rfl ⟨h, nofun, nofun, hrank⟩ hoperand

theorem sound_binary {op : BinaryOp} {lhs rhs : Expr} (h : span.Placed source)
    (hlhs : op.level < lhs.rank) (hrhs : op.level + 1 < rhs.rank)
    (hbetween : source.Between lhs.span rhs.span op.text) (hl : lhs.Sound source)
    (hr : rhs.Sound source) : (binary span op lhs rhs).Sound source :=
  sound_of_inside rfl ⟨h, nofun, nofun, hlhs, hrhs, hbetween⟩ (List.forall_mem_append.2 ⟨hl, hr⟩)

theorem sound_conditional {cond yes no : Expr} (h : span.Placed source) (hrank : 0 < cond.rank)
    (hyes : source.Between cond.span yes.span "?") (hno : source.Between yes.span no.span ":")
    (hc : cond.Sound source) (hy : yes.Sound source) (hn : no.Sound source) :
    (conditional span cond yes no).Sound source := by
  refine sound_of_inside rfl ⟨h, nofun, nofun, hrank, hyes, hno⟩ ?_
  exact List.forall_mem_append.2 ⟨List.forall_mem_append.2 ⟨hc, hy⟩, hn⟩

section Steps

variable {e : Expr} (hrank : BinaryOp.levels.length + 1 < e.rank) (he : e.Sound source)

include hrank he

theorem sound_index {key : Expr} (h : span.Placed source) (hkey : key.Sound source) :
    (index span e key).Sound source :=
  sound_of_inside rfl ⟨h, nofun, nofun, fun _ hx => Option.some.inj hx ▸ hrank⟩
    (List.forall_mem_append.2 ⟨he, hkey⟩)

theorem sound_splat {each : List Step} (h : span.Placed source)
    (heach : ∀ step ∈ each, step.span.Placed source) : (splat span e each).Sound source :=
  sound_of_inside rfl ⟨h, heach, nofun, fun _ hx => Option.some.inj hx ▸ hrank⟩ he

theorem sound_follow {step : Step} (h : (e.span.through step.span).Placed source)
    (hstep : step.span.Placed source) : (e.follow step).Sound source := by
  have hsteps {steps : List Step} (hs : ∀ s ∈ steps, s.span.Placed source) :
      ∀ s ∈ steps ++ [step], s.span.Placed source :=
    List.forall_mem_append.2 ⟨hs, List.forall_mem_singleton.2 hstep⟩
  have hfine := he.fine
  unfold Expr.follow
  cases e with
  | traversal span root steps =>
    exact sound_of_inside rfl ⟨h, hsteps hfine.steps, nofun, nofun⟩ nofun
  | relative span source' steps =>
    refine sound_of_inside rfl ⟨h, hsteps hfine.steps, nofun, hfine.arranged⟩ fun p hp => ?_
    exact he p (List.mem_cons_of_mem _ hp)
  | _ =>
    exact sound_of_inside rfl ⟨h, List.forall_mem_singleton.2 hstep, nofun, fun _ hx =>
      Option.some.inj hx ▸ hrank⟩ he

end Steps

end Constructors

end Expr

end StaticConfig

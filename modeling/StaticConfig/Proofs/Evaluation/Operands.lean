import StaticConfig.Eval.Basic
import StaticConfig.Proofs.Evaluation.Alike
import StaticConfig.Proofs.Sensitivity.Parts

/-!
Couplings: relations between the values of two runs of one expression. Two results may differ in
any way where the first is unknown, or where both are marked, as far as the coupling tolerates
either; everywhere else they have the same form. What an expression does with values keeps them
related, so that only the operators and functions on unmarked values remain to be looked at for
a particular coupling.
-/
namespace StaticConfig

/-- Literals and calls that expressions may contain. Calls are given by the name and whether the
last argument is expanded. -/
structure Fragment where
  literal : Value → Prop
  call : String → Bool → Prop

def Step.Within (F : Fragment) : Step → Prop
  | .attr _ _ => True
  | .index _ key => F.literal key

namespace Expr

mutual

/-- The expression contains no conditional, and only literals and calls of the fragment. -/
def Within (F : Fragment) : Expr → Prop
  | .literal _ v => F.literal v
  | .template _ parts => PartsWithin F parts
  | .traversal _ _ steps => ∀ s ∈ steps, s.Within F
  | .relative _ source steps => Within F source ∧ ∀ s ∈ steps, s.Within F
  | .index _ collection key => Within F collection ∧ Within F key
  | .splat _ source each => Within F source ∧ ∀ s ∈ each, s.Within F
  | .tuple _ items => AllWithin F items
  | .object _ items => ItemsWithin F items
  | .call _ name args expand => F.call name expand ∧ AllWithin F args
  | .unary _ _ operand => Within F operand
  | .binary _ _ lhs rhs => Within F lhs ∧ Within F rhs
  | .conditional _ _ _ _ => False
  | .forEach _ _ _ collection key value cond _ =>
    Within F collection ∧ OptionWithin F key ∧ Within F value ∧ OptionWithin F cond
  | .parens _ inner => Within F inner

def AllWithin (F : Fragment) : List Expr → Prop
  | [] => True
  | e :: es => Within F e ∧ AllWithin F es

def PartsWithin (F : Fragment) : List TemplatePart → Prop
  | [] => True
  | .text _ :: parts => PartsWithin F parts
  | .interp e :: parts => Within F e ∧ PartsWithin F parts

def ItemsWithin (F : Fragment) : List (ObjectKey × Expr) → Prop
  | [] => True
  | (.name _ _, value) :: items => Within F value ∧ ItemsWithin F items
  | (.expr key, value) :: items => Within F key ∧ Within F value ∧ ItemsWithin F items

def OptionWithin (F : Fragment) : Option Expr → Prop
  | none => True
  | some e => Within F e

end

end Expr

open Value Eval

/-- What is asked of the values of two runs. -/
structure Coupling where
  rel : Value → Value → Prop
  /-- Where the first value is unknown the second may be anything. -/
  unknowns : Prop
  /-- Where both values are marked they may be anything. -/
  marks : Prop
  /-- No value is marked. -/
  unmarked : Prop

namespace Coupling

variable (C : Coupling)

/-- Results may differ that are known in the first run, and marked in the two runs, as given. -/
def Free (known marked marked' : Bool) : Prop :=
  (C.unknowns ∧ known = false) ∨ (C.marks ∧ marked = true ∧ marked' = true)

def Fit (v : Value) : Prop :=
  C.unmarked → v.hasMark = false

def Coupled (v w : Value) : Prop :=
  C.rel v w ∧ C.Fit v ∧ C.Fit w

def Envs (env env' : Env) : Prop :=
  ∀ name, Option.Rel C.Coupled (env.lookup name) (env'.lookup name)

/-- The coupling is kept by the operators and functions, and by the values that expressions
build. -/
structure Sound (s : Setting) (F : Fragment) : Prop where
  of_free {v w : Value} : C.Free v.isKnown v.isMarked w.isMarked → C.rel v w
  view {v w : Value} : C.Coupled v w →
    C.Free v.isKnown v.isMarked w.isMarked ∨ Alike C.Coupled v w
  marks {v w : Value} : C.Coupled v w →
    (C.marks ∧ v.hasMark = true ∧ w.hasMark = true) ∨ (v.hasMark = false ∧ w.hasMark = false)
  leaf {v : Value} : v.isLeaf = true → C.rel v v
  tuple {vs ws : List Value} : List.Forall₂ C.Coupled vs ws → C.rel (.tuple vs) (.tuple ws)
  object {as bs : Fields Value} : Fields.Related C.Coupled as bs → C.rel (.object as) (.object bs)
  /-- An answer about equality stays, unless it is open. -/
  equal {a a' b b' : Value} : C.Coupled a a' → C.Coupled b b' →
    a.hasMark = false → a'.hasMark = false → b.hasMark = false → b'.hasMark = false →
    (C.unknowns ∧ equal? a.bare b.bare = none) ∨ equal? a.bare b.bare = equal? a'.bare b'.bare
  literal {v : Value} : F.literal v → C.rel v v ∧ C.Fit v
  call {name : String} {expand : Bool} {args args' : List Value} {span : Span} {v w : Value} :
    F.call name expand → List.Forall₂ C.Coupled args args' →
    callNamed s name args span = .ok v → callNamed s name args' span = .ok w → C.rel v w
  expand {name : String} : F.call name true → ¬ C.marks
  unmarked : C.unknowns → C.unmarked
  fit {env : Env} {e : Expr} {v : Value} : e.Within F →
    (∀ name v, env.lookup name = some v → C.Fit v) → eval s env e = ⟨v, []⟩ → C.Fit v

variable {C}

theorem Free.weaken {known known' marked marked' more more' : Bool}
    (h : C.Free known marked marked') (hk : known = false → known' = false)
    (hm : marked = true → more = true) (hm' : marked' = true → more' = true) :
    C.Free known' more more' :=
  h.imp (fun ⟨hu, h⟩ => ⟨hu, hk h⟩) fun ⟨hc, h, h'⟩ => ⟨hc, hm h, hm' h'⟩

theorem Free.or_left {known m m' n n' : Bool} (h : C.Free known m m') :
    C.Free known (m || n) (m' || n') :=
  h.weaken id (fun h => by rw [h, Bool.true_or]) fun h => by rw [h, Bool.true_or]

theorem Free.or_right {known m m' n n' : Bool} (h : C.Free known n n') :
    C.Free known (m || n) (m' || n') :=
  h.weaken id (fun h => by rw [h, Bool.or_true]) fun h => by rw [h, Bool.or_true]

namespace Sound

variable {s : Setting} {F : Fragment} {v w p q : Value}

/-- A result may differ as much as its mark and what it depends on allow. -/
theorem rel_markIf (S : C.Sound s F) {known m m' : Bool} (h : C.Free known m m')
    (hk : known = false → v.isKnown = false) : C.rel (markIf m v) (markIf m' w) := by
  refine S.of_free ?_
  rw [isKnown_markIf, isMarked_markIf, isMarked_markIf]
  exact (h.weaken hk id id).or_left

theorem coupled_leaf (S : C.Sound s F) (h : v.isLeaf = true) : C.Coupled v v :=
  ⟨S.leaf h, fun _ => (EqUnmarked.leaf h).2, fun _ => (EqUnmarked.leaf h).2⟩

/-- Values whose marks are looked at throughout are as free as their marks, or they have none. -/
theorem bareView (S : C.Sound s F) (h : C.Coupled v w) :
    C.Free v.isKnown v.hasMark w.hasMark ∨
      v.hasMark = false ∧ w.hasMark = false ∧ Alike C.Coupled v w := by
  rcases S.marks h with hm | ⟨hm, hm'⟩
  · exact .inl (.inr hm)
  rcases S.view h with hfree | halike
  · exact .inl (hfree.weaken id hasMark_of_isMarked hasMark_of_isMarked)
  · exact .inr ⟨hm, hm', halike⟩

theorem unmarkedView (S : C.Sound s F) (h : C.Coupled v w) (hm : v.hasMark = false) :
    (C.unknowns ∧ v.isKnown = false) ∨ Alike C.Coupled v w := by
  rcases S.view h with (hu | ⟨_, hm', _⟩) | halike
  · exact .inl hu
  · rw [isMarked_of_hasMark hm] at hm'
    cases hm'
  · exact .inr halike

theorem attr (S : C.Sound s F) {name : String} {span : Span} (h : C.Coupled v w)
    (hp : v.attr name span = .ok p) (hq : w.attr name span = .ok q) : C.Coupled p q := by
  refine ⟨?_, fun hu => hasMark_attr (h.2.1 hu) hp, fun hu => hasMark_attr (h.2.2 hu) hq⟩
  obtain ⟨a, ha, rfl⟩ := Except.map_eq_ok.1 hp
  obtain ⟨b, hb, rfl⟩ := Except.map_eq_ok.1 hq
  rcases S.view h with hfree | halike
  · exact S.rel_markIf hfree fun hk => isKnown_bareAttr hk ha
  · rw [unmarked_of_isMarked_eq_false halike.isMarked_left] at ha
    rw [unmarked_of_isMarked_eq_false halike.isMarked_right] at hb
    rw [halike.isMarked_left, halike.isMarked_right]
    exact (halike.bareAttr (fun _ => S.coupled_leaf) ha hb).1

theorem element (S : C.Sound s F) {key key' : Value} {span : Span} (h : C.Coupled v w)
    (hkey : C.Coupled key key') (hp : v.element key span = .ok p)
    (hq : w.element key' span = .ok q) : C.Coupled p q := by
  refine ⟨?_, fun hu => hasMark_element (h.2.1 hu) (hkey.2.1 hu) hp,
    fun hu => hasMark_element (h.2.2 hu) (hkey.2.2 hu) hq⟩
  obtain ⟨a, ha, rfl⟩ := Except.map_eq_ok.1 hp
  obtain ⟨b, hb, rfl⟩ := Except.map_eq_ok.1 hq
  rcases S.view h with hfree | halike
  · exact S.rel_markIf hfree.or_left fun hk => isKnown_bareElement (.inl hk) ha
  rcases S.bareView hkey with hfree | ⟨hm, hm', hsame⟩
  · exact S.rel_markIf hfree.or_right fun hk => isKnown_bareElement (.inr hk) ha
  · rw [unmarked_of_isMarked_eq_false halike.isMarked_left] at ha
    rw [unmarked_of_isMarked_eq_false halike.isMarked_right] at hb
    rw [halike.isMarked_left, hm, halike.isMarked_right, hm']
    exact (halike.bareElement (fun _ => S.coupled_leaf) hsame.isNull_bare hsame.isKnown_bare
      (fun _ => hsame.convert?_bare) ha hb).1

theorem coupled_literal (S : C.Sound s F) (h : F.literal v) : C.Coupled v v :=
  ⟨(S.literal h).1, (S.literal h).2, (S.literal h).2⟩

theorem steps (S : C.Sound s F) {each : List Step} (hs : ∀ st ∈ each, st.Within F)
    (h : C.Coupled v w) (hp : v.steps each = .ok p) (hq : w.steps each = .ok q) :
    C.Coupled p q := by
  induction each generalizing v w with
  | nil =>
    cases hp
    cases hq
    exact h
  | cons st rest ih =>
    obtain ⟨v', hv, hp⟩ := Except.bind_eq_ok.1 hp
    obtain ⟨w', hw, hq⟩ := Except.bind_eq_ok.1 hq
    refine ih (fun st hst => hs st (List.mem_cons_of_mem _ hst)) ?_ hp hq
    cases st with
    | attr span name => exact S.attr h hv hw
    | index span key =>
      have hkey : F.literal key := hs _ List.mem_cons_self
      exact S.element h (S.coupled_literal hkey) hv hw

theorem stepsOfEach (S : C.Sound s F) {each : List Step} (hs : ∀ st ∈ each, st.Within F)
    {vs ws ps qs : List Value} (h : List.Forall₂ C.Coupled vs ws)
    (hp : stepsOfEach each vs = .ok ps) (hq : stepsOfEach each ws = .ok qs) :
    List.Forall₂ C.Coupled ps qs := by
  induction h generalizing ps qs with
  | nil =>
    cases hp
    cases hq
    exact .nil
  | cons hvw _ ih =>
    simp only [Value.stepsOfEach, Except.bind_eq_ok, Except.pure_eq_ok] at hp hq
    obtain ⟨a, ha, as, has, rfl⟩ := hp
    obtain ⟨b, hb, bs, hbs, rfl⟩ := hq
    exact .cons (S.steps hs hvw ha hb) (ih has hbs)

theorem splat (S : C.Sound s F) {each : List Step} (hs : ∀ st ∈ each, st.Within F)
    (h : C.Coupled v w) (hp : v.splat each = .ok p) (hq : w.splat each = .ok q) :
    C.rel p q := by
  obtain ⟨a, ha, rfl⟩ := Except.map_eq_ok.1 hp
  obtain ⟨b, hb, rfl⟩ := Except.map_eq_ok.1 hq
  rcases S.view h with (⟨hu, hk⟩ | hmarks) | halike
  · obtain ⟨t, rfl⟩ := eq_unknown hk (h.2.1 (S.unmarked hu))
    cases ha
    exact S.of_free (.inl ⟨hu, rfl⟩)
  · have hfree : C.Free true v.isMarked w.isMarked := .inr hmarks
    exact S.rel_markIf hfree nofun
  · rw [unmarked_of_isMarked_eq_false halike.isMarked_left] at ha
    rw [unmarked_of_isMarked_eq_false halike.isMarked_right] at hb
    rw [halike.isMarked_left, halike.isMarked_right]
    have single (ha : (v.steps each).map (fun part => Value.tuple [part]) = .ok a)
        (hb : (w.steps each).map (fun part => Value.tuple [part]) = .ok b) : C.rel a b := by
      obtain ⟨x, hx, rfl⟩ := Except.map_eq_ok.1 ha
      obtain ⟨y, hy, rfl⟩ := Except.map_eq_ok.1 hb
      exact S.tuple (.cons (S.steps hs h hx hy) .nil)
    have several {vs ws : List Value} (hvw : List.Forall₂ C.Coupled vs ws)
        (ha : (Value.stepsOfEach each vs).map Value.tuple = .ok a)
        (hb : (Value.stepsOfEach each ws).map Value.tuple = .ok b) : C.rel a b := by
      obtain ⟨xs, hxs, rfl⟩ := Except.map_eq_ok.1 ha
      obtain ⟨ys, hys, rfl⟩ := Except.map_eq_ok.1 hb
      exact S.tuple (S.stepsOfEach hs hvw hxs hys)
    cases halike with
    | null =>
      cases ha
      cases hb
      exact S.tuple .nil
    | unknown =>
      cases ha
      cases hb
      exact S.leaf rfl
    | list hvw => exact several hvw ha hb
    | set hvw => exact several hvw ha hb
    | tuple hvw => exact several hvw ha hb
    | _ => exact single ha hb

end Sound

end Coupling

end StaticConfig

/-!
Operators in two runs. Their results have no parts, and an operator answers the same on operands
that read the same. An unknown operand leaves the answer open, or the other operand decides it
alone.
-/
namespace StaticConfig.Operator

open Value

theorem operand_unknown {v o : Value} {t : Ty} {span : Span} {side : Side}
    (ht : t.isPrimitive = true) (h : v.isKnown = false)
    (ho : operand v.bare t span side = .ok o) : o = .unknown t := by
  obtain ⟨u, hu⟩ := bare_eq_unknown v h
  have hne : (t == .dynamic) = false := by cases t <;> first | rfl | cases ht
  simp only [operand, hu, Value.isNull, Bool.false_eq_true, if_false, convert, hne] at ho
  split at ho
  · rename_i a ha
    split at ha
    · cases ha
      cases ho
      rfl
    · cases ha
  · cases ho

theorem isLeaf_unary {op : UnaryOp} {v o : Value} {span : Span} (h : unary op v span = .ok o) :
    o.isLeaf = true := by
  cases op <;> obtain ⟨a, _, ha⟩ := Except.bind_eq_ok.1 h <;> split at ha <;> cases ha <;> rfl

theorem isKnown_unary {op : UnaryOp} {v o : Value} {span : Span} (hv : v.isKnown = false)
    (h : unary op v.bare span = .ok o) : o.isKnown = false := by
  cases op <;> obtain ⟨a, ha, ho⟩ := Except.bind_eq_ok.1 h
  · rw [operand_unknown rfl hv ha] at ho
    cases ho
    rfl
  · rw [operand_unknown rfl hv ha] at ho
    cases ho
    rfl

theorem unary_eq {R : Value → Value → Prop} {v w : Value} (h : Alike R v w) (op : UnaryOp)
    (span : Span) : unary op v.bare span = unary op w.bare span := by
  cases op
  · simp only [unary, h.operand_eq (t := .number) rfl]
  · simp only [unary, h.operand_eq (t := .bool) rfl]

theorem isLeaf_both (a b : Option Bool) : (both a b).isLeaf = true := by
  rcases a with _ | _ | _ <;> rcases b with _ | _ | _ <;> rfl

theorem isLeaf_either (a b : Option Bool) : (either a b).isLeaf = true := by
  rcases a with _ | _ | _ <;> rcases b with _ | _ | _ <;> rfl

/-- Learning an operand of a conjunction does not change its answer. -/
theorem both_mono {a a' b b' : Option Bool} (ha : a = none ∨ a = a') (hb : b = none ∨ b = b') :
    (both a b).isKnown = false ∨ both a b = both a' b' := by
  rcases ha with rfl | rfl <;> rcases hb with rfl | rfl
  · exact .inl rfl
  · rcases b with _ | _ | _ <;> rcases a' with _ | _ | _ <;> first | exact .inl rfl | exact .inr rfl
  · rcases a with _ | _ | _ <;> rcases b' with _ | _ | _ <;> first | exact .inl rfl | exact .inr rfl
  · exact .inr rfl

theorem either_mono {a a' b b' : Option Bool} (ha : a = none ∨ a = a') (hb : b = none ∨ b = b') :
    (either a b).isKnown = false ∨ either a b = either a' b' := by
  rcases ha with rfl | rfl <;> rcases hb with rfl | rfl
  · exact .inl rfl
  · rcases b with _ | _ | _ <;> rcases a' with _ | _ | _ <;> first | exact .inl rfl | exact .inr rfl
  · rcases a with _ | _ | _ <;> rcases b' with _ | _ | _ <;> first | exact .inl rfl | exact .inr rfl
  · exact .inr rfl

theorem isLeaf_numeric {op : BinaryOp} {a b : Number} {span : Span} {o : Value}
    (h : numeric op a b span = .ok o) : o.isLeaf = true := by
  cases op with
  | div =>
    simp only [numeric] at h
    split at h
    · cases h
      rfl
    · cases h
  | mod =>
    simp only [numeric] at h
    split at h
    · cases h
      rfl
    · cases h
  | _ =>
    cases h
    rfl

theorem isLeaf_binary {op : BinaryOp} {v w o : Value} {lspan rspan span : Span}
    (h : binary op v w lspan rspan span = .ok o) : o.isLeaf = true := by
  cases op with
  | eq =>
    cases h
    split <;> rfl
  | ne =>
    cases h
    split <;> rfl
  | and =>
    obtain ⟨a, _, h⟩ := Except.bind_eq_ok.1 h
    obtain ⟨b, _, h⟩ := Except.bind_eq_ok.1 h
    cases h
    exact isLeaf_both _ _
  | or =>
    obtain ⟨a, _, h⟩ := Except.bind_eq_ok.1 h
    obtain ⟨b, _, h⟩ := Except.bind_eq_ok.1 h
    cases h
    exact isLeaf_either _ _
  | _ =>
    obtain ⟨a, _, h⟩ := Except.bind_eq_ok.1 h
    obtain ⟨b, _, h⟩ := Except.bind_eq_ok.1 h
    split at h
    · exact isLeaf_numeric h
    · cases h
      rfl

section TwoOperands

variable {R : Value → Value → Prop} {u : Prop} {v v' w w' a a' b b' o o' : Value}

/-- The operands are read the same unless the first one is unknown. -/
theorem operand_cases {t : Ty} {span : Span} {side : Side} (ht : t.isPrimitive = true)
    (h : (u ∧ v.isKnown = false) ∨ Alike R v v') (ha : operand v.bare t span side = .ok a)
    (ha' : operand v'.bare t span side = .ok a') : (u ∧ a = .unknown t) ∨ a = a' := by
  rcases h with ⟨hu, hk⟩ | h
  · exact .inl ⟨hu, operand_unknown ht hk ha⟩
  · rw [h.operand_eq ht] at ha
    exact .inr (Except.ok.inj (ha.symm.trans ha'))

theorem logical_cases {f : Option Bool → Option Bool → Value}
    (hf : ∀ {x x' y y' : Option Bool}, x = none ∨ x = x' → y = none ∨ y = y' →
      (f x y).isKnown = false ∨ f x y = f x' y')
    (ha : (u ∧ a = .unknown .bool) ∨ a = a') (hb : (u ∧ b = .unknown .bool) ∨ b = b') :
    (u ∧ (f a.bool? b.bool?).isKnown = false) ∨ f a.bool? b.bool? = f a'.bool? b'.bool? := by
  rcases ha with ⟨hu, rfl⟩ | rfl
  · have hb' : b.bool? = none ∨ b.bool? = b'.bool? :=
      hb.imp (fun h => congrArg Value.bool? h.2) (congrArg Value.bool?)
    exact (hf (.inl rfl) hb').imp_left fun h => ⟨hu, h⟩
  · rcases hb with ⟨hu, rfl⟩ | rfl
    · exact (hf (.inr rfl) (.inl rfl)).imp_left fun h => ⟨hu, h⟩
    · exact .inr rfl

/-- The answer of an operator stays when more of its operands is known, unless it is open. What
the operator says about equality is left to the caller. -/
theorem binary_cases {op : BinaryOp} {lspan rspan span : Span}
    (hl : (u ∧ v.isKnown = false) ∨ Alike R v v') (hr : (u ∧ w.isKnown = false) ∨ Alike R w w')
    (heq : (u ∧ equal? v.bare w.bare = none) ∨ equal? v.bare w.bare = equal? v'.bare w'.bare)
    (ho : binary op v.bare w.bare lspan rspan span = .ok o)
    (ho' : binary op v'.bare w'.bare lspan rspan span = .ok o') :
    (u ∧ o.isKnown = false) ∨ o = o' := by
  cases op with
  | eq =>
    cases ho
    cases ho'
    rcases heq with ⟨hu, h⟩ | h
    · exact .inl ⟨hu, by rw [h]; rfl⟩
    · exact .inr (by rw [h])
  | ne =>
    cases ho
    cases ho'
    rcases heq with ⟨hu, h⟩ | h
    · exact .inl ⟨hu, by rw [h]; rfl⟩
    · exact .inr (by rw [h])
  | and =>
    obtain ⟨a, ha, ho⟩ := Except.bind_eq_ok.1 ho
    obtain ⟨b, hb, ho⟩ := Except.bind_eq_ok.1 ho
    obtain ⟨a', ha', ho'⟩ := Except.bind_eq_ok.1 ho'
    obtain ⟨b', hb', ho'⟩ := Except.bind_eq_ok.1 ho'
    cases ho
    cases ho'
    exact logical_cases both_mono (operand_cases rfl hl ha ha') (operand_cases rfl hr hb hb')
  | or =>
    obtain ⟨a, ha, ho⟩ := Except.bind_eq_ok.1 ho
    obtain ⟨b, hb, ho⟩ := Except.bind_eq_ok.1 ho
    obtain ⟨a', ha', ho'⟩ := Except.bind_eq_ok.1 ho'
    obtain ⟨b', hb', ho'⟩ := Except.bind_eq_ok.1 ho'
    cases ho
    cases ho'
    exact logical_cases either_mono (operand_cases rfl hl ha ha') (operand_cases rfl hr hb hb')
  | _ =>
    obtain ⟨a, ha, ho⟩ := Except.bind_eq_ok.1 ho
    obtain ⟨b, hb, ho⟩ := Except.bind_eq_ok.1 ho
    obtain ⟨a', ha', ho'⟩ := Except.bind_eq_ok.1 ho'
    obtain ⟨b', hb', ho'⟩ := Except.bind_eq_ok.1 ho'
    rcases operand_cases rfl hl ha ha' with ⟨hu, rfl⟩ | rfl
    · cases ho
      exact .inl ⟨hu, rfl⟩
    · rcases operand_cases rfl hr hb hb' with ⟨hu, rfl⟩ | rfl
      · cases hn : a.number? <;> simp only [hn] at ho <;> cases ho <;> exact .inl ⟨hu, rfl⟩
      · exact .inr (Except.ok.inj (ho.symm.trans ho'))

end TwoOperands

end StaticConfig.Operator

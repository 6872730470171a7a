import StaticConfig.Builtin.Collections
import StaticConfig.Proofs.Conversion.Hereditary
import StaticConfig.Proofs.Sensitivity.Unmarked

/-!
Values of which less or more is known. An unknown value approximates every value, and a known
value those that have the same form and parts that it approximates one by one. A value that is
known throughout approximates only itself.
-/
namespace StaticConfig.Value

inductive Approximates : Value → Value → Prop
  | unknown {t : Ty} {w : Value} : Approximates (.unknown t) w
  | null {t : Ty} : Approximates (.null t) (.null t)
  | bool {b : Bool} : Approximates (.bool b) (.bool b)
  | number {n : Number} : Approximates (.number n) (.number n)
  | string {s : String} : Approximates (.string s) (.string s)
  | list {e : Ty} {vs ws : List Value} :
      List.Forall₂ Approximates vs ws → Approximates (.list e vs) (.list e ws)
  /-- Items of a set that get known may turn out to be equal. -/
  | set {e : Ty} {items : List Value} :
      allKnown items = true → Approximates (.set e items) (.set e items)
  | map {e : Ty} {as bs : List (String × Value)} :
      Fields.Related Approximates as bs → Approximates (.map e as) (.map e bs)
  | tuple {vs ws : List Value} :
      List.Forall₂ Approximates vs ws → Approximates (.tuple vs) (.tuple ws)
  | object {as bs : List (String × Value)} :
      Fields.Related Approximates as bs → Approximates (.object as) (.object bs)

namespace Approximates

mutual

/-- What is known throughout stays. -/
theorem eq_of_isWhollyKnown : ∀ {v w : Value}, Approximates v w → v.isWhollyKnown = true → v = w
  | _, _, .unknown, hk => nomatch hk
  | _, _, .null, _ => rfl
  | _, _, .bool, _ => rfl
  | _, _, .number, _ => rfl
  | _, _, .string, _ => rfl
  | _, _, .set _, _ => rfl
  | _, _, .list h, hk => by rw [eq_of_allKnown h hk]
  | _, _, .map h, hk => by rw [eq_of_allFieldsKnown h hk]
  | _, _, .tuple h, hk => by rw [eq_of_allKnown h hk]
  | _, _, .object h, hk => by rw [eq_of_allFieldsKnown h hk]

theorem eq_of_allKnown : ∀ {vs ws : List Value}, List.Forall₂ Approximates vs ws →
    allKnown vs = true → vs = ws
  | _, _, .nil, _ => rfl
  | _, _, .cons h hs, hk => by
    simp only [allKnown, Bool.and_eq_true] at hk
    rw [eq_of_isWhollyKnown h hk.1, eq_of_allKnown hs hk.2]

theorem eq_of_allFieldsKnown : ∀ {as bs : List (String × Value)},
    Fields.Related Approximates as bs → allFieldsKnown as = true → as = bs
  | _, _, .nil, _ => rfl
  | _, _, .cons h hs, hk => by
    simp only [allFieldsKnown, Bool.and_eq_true] at hk
    rw [eq_of_isWhollyKnown h hk.1, eq_of_allFieldsKnown hs hk.2]

end

mutual

theorem refl : ∀ {v : Value}, v.isWhollyKnown = true → v.hasMark = false → Approximates v v
  | .sensitive _, _, hm => nomatch hm
  | .null _, _, _ => .null
  | .bool _, _, _ => .bool
  | .number _, _, _ => .number
  | .string _, _, _ => .string
  | .list _ _, hk, hm => .list (reflAll hk hm)
  | .set _ _, hk, _ => .set hk
  | .map _ _, hk, hm => .map (reflFields hk hm)
  | .tuple _, hk, hm => .tuple (reflAll hk hm)
  | .object _, hk, hm => .object (reflFields hk hm)

theorem reflAll : ∀ {vs : List Value}, allKnown vs = true → anyMark vs = false →
    List.Forall₂ Approximates vs vs
  | [], _, _ => .nil
  | v :: vs, hk, hm => by
    simp only [allKnown, Bool.and_eq_true] at hk
    simp only [anyMark, Bool.or_eq_false_iff] at hm
    exact .cons (refl hk.1 hm.1) (reflAll hk.2 hm.2)

theorem reflFields : ∀ {fields : List (String × Value)}, allFieldsKnown fields = true →
    anyFieldMark fields = false → Fields.Related Approximates fields fields
  | [], _, _ => .nil
  | (_, v) :: rest, hk, hm => by
    simp only [allFieldsKnown, Bool.and_eq_true] at hk
    simp only [anyFieldMark, Bool.or_eq_false_iff] at hm
    exact .cons (refl hk.1 hm.1) (reflFields hk.2 hm.2)

end

mutual

theorem bare : ∀ {v w : Value}, Approximates v w → Approximates v.bare w.bare
  | _, _, .unknown => .unknown
  | _, _, .null => .null
  | _, _, .bool => .bool
  | _, _, .number => .number
  | _, _, .string => .string
  | .set e items, _, .set hk => .set (Hereditary.whollyKnown.bare (.set e items) hk)
  | _, _, .list h => .list (bareAll h)
  | _, _, .map h => .map (bareFields h)
  | _, _, .tuple h => .tuple (bareAll h)
  | _, _, .object h => .object (bareFields h)

theorem bareAll : ∀ {vs ws : List Value}, List.Forall₂ Approximates vs ws →
    List.Forall₂ Approximates (bareAll vs) (bareAll ws)
  | _, _, .nil => .nil
  | _, _, .cons h hs => .cons (bare h) (bareAll hs)

theorem bareFields : ∀ {as bs : List (String × Value)}, Fields.Related Approximates as bs →
    Fields.Related Approximates (bareFields as) (bareFields bs)
  | _, _, .nil => .nil
  | _, _, .cons h hs => .cons (bare h) (bareFields hs)

end

theorem isKnown_right {v w : Value} (h : Approximates v w) (hk : v.isKnown = true) :
    w.isKnown = true := by
  cases h <;> first | rfl | cases hk

theorem isNull_eq {v w : Value} (h : Approximates v w) (hk : v.isKnown = true) :
    v.isNull = w.isNull := by
  cases h <;> first | rfl | cases hk

theorem isWhollyKnown_eq_false : ∀ v : Value, v.isKnown = false → v.isWhollyKnown = false
  | .unknown _, _ => rfl
  | .sensitive v, h => isWhollyKnown_eq_false v h

/-- An answer about the equality of values does not change when more of them gets known. -/
theorem equal? {v v' w w' : Value} (hv : Approximates v v') (hw : Approximates w w') :
    Value.equal? v w = none ∨ Value.equal? v w = Value.equal? v' w' := by
  simp only [Value.equal?]
  have hv := hv.bare
  have hw := hw.bare
  generalize v.bare = a at hv ⊢
  generalize v'.bare = a' at hv ⊢
  generalize w.bare = b at hw ⊢
  generalize w'.bare = b' at hw ⊢
  cases hk : a.isKnown && b.isKnown with
  | true =>
    obtain ⟨hka, hkb⟩ := Bool.and_eq_true_iff.1 hk
    rw [hv.isNull_eq hka, hw.isNull_eq hkb, hv.isKnown_right hka, hw.isKnown_right hkb]
    split
    · exact .inr rfl
    split
    · exact .inl rfl
    · rename_i hopen
      simp only [Bool.or_eq_true, Bool.not_eq_true', not_or, Bool.not_eq_false] at hopen
      cases hv.eq_of_isWhollyKnown hopen.1
      cases hw.eq_of_isWhollyKnown hopen.2
      simp only [hopen, Bool.not_true, Bool.or_self, Bool.false_eq_true, if_false, or_true]
  | false =>
    refine .inl ?_
    have hopen : (!a.isWhollyKnown || !b.isWhollyKnown) = true := by
      rcases Bool.and_eq_false_iff.1 hk with hk | hk
      · rw [isWhollyKnown_eq_false a hk, Bool.not_false, Bool.true_or]
      · rw [isWhollyKnown_eq_false b hk, Bool.not_false, Bool.or_true]
    rw [hopen]
    simp

/-! Functions that see unknown values. -/

/-- Conversion to a primitive type. -/
theorem convert {v w r r' : Value} {t : Ty} (ht : t.isPrimitive = true) (h : Approximates v w)
    (hr : v.convert t = .ok r) (hr' : w.convert t = .ok r') : Approximates r r' := by
  have scalar {v : Value} (hk : v.isWhollyKnown = true) (hm : v.hasMark = false)
      (hr : v.convert t = .ok r) (hr' : v.convert t = .ok r') : Approximates r r' := by
    cases hr.symm.trans hr'
    exact refl (Hereditary.whollyKnown.convert v hk hr) (Hereditary.unmarked.convert v hm hr)
  cases h with
  | unknown =>
    have hne : (t == .dynamic) = false := by cases t <;> first | rfl | cases ht
    simp only [Value.convert, hne] at hr
    split at hr
    · contradiction
    · split at hr
      · cases hr
        exact .unknown
      · cases hr
  | null => exact scalar rfl rfl hr hr'
  | bool => exact scalar rfl rfl hr hr'
  | number => exact scalar rfl rfl hr hr'
  | string => exact scalar rfl rfl hr hr'
  | _ =>
    cases t with
    | bool => cases hr
    | number => cases hr
    | string => cases hr
    | _ => cases ht

theorem length_eq {as bs : Fields Value} (h : Fields.Related Approximates as bs) :
    as.length = bs.length := by
  induction h with
  | nil => rfl
  | cons _ _ ih => exact congrArg Nat.succ ih

theorem length {v w r r' : Value} (h : Approximates v w)
    (hr : Builtin.Collections.length v = .ok r) (hr' : Builtin.Collections.length w = .ok r') :
    Approximates r r' := by
  have same {n n' : Nat} (hn : n = n') (hr : (.ok (.ofNat n) : CallResult) = .ok r)
      (hr' : (.ok (.ofNat n') : CallResult) = .ok r') : Approximates r r' := by
    subst hn
    cases hr
    cases hr'
    exact .number
  cases h with
  | unknown =>
    cases hr
    exact .unknown
  | string => exact same rfl hr hr'
  | list h => exact same h.length_eq hr hr'
  | set => exact same rfl hr hr'
  | map h => exact same (length_eq h) hr hr'
  | tuple h => exact same h.length_eq hr hr'
  | object h => exact same (length_eq h) hr hr'
  | _ => cases hr

end Approximates

end StaticConfig.Value

/-!
Known results are to be trusted. When more gets known of the values that an expression refers to,
what was known of its result before stays as it was.
-/
namespace StaticConfig

open Value Eval Builtin

/-- Functions that find an element type in what is known of their argument, that see or change
marks, or that evaluate expressions. -/
def Fragment.abrupt : List String :=
  ["tolist", "toset", "tomap", "sensitive", "nonsensitive", "issensitive",
    "provider::terraform::decode_tfvars"]

/-- No call of such a function. Literals are as in sources, where they are known and have no
marks, or at least no more than they approximate themselves. -/
def Fragment.gradual : Fragment where
  literal v := Approximates v v ∧ v.hasMark = false
  call name _ := name ∉ abrupt

theorem Fragment.ne_of_not_abrupt {name : String} (h : name ∉ Fragment.abrupt) :
    name ≠ "sensitive" ∧ name ≠ "provider::terraform::decode_tfvars" :=
  ⟨fun he => h (he ▸ by decide), fun he => h (he ▸ by decide)⟩

namespace Value.Approximates

/-- The first value is to approximate the second, as long as it has no mark. -/
def coupling : Coupling where
  rel v w := v.hasMark = false → Approximates v w
  unknowns := True
  marks := False
  unmarked := True

theorem coupled_iff {v w : Value} :
    coupling.Coupled v w ↔ Approximates v w ∧ v.hasMark = false ∧ w.hasMark = false :=
  ⟨fun h => ⟨h.1 (h.2.1 trivial), h.2.1 trivial, h.2.2 trivial⟩,
    fun h => ⟨fun _ => h.1, fun _ => h.2.1, fun _ => h.2.2⟩⟩

theorem coupled_all {vs ws : List Value} (h : List.Forall₂ Approximates vs ws)
    (hm : anyMark vs = false) (hm' : anyMark ws = false) :
    List.Forall₂ coupling.Coupled vs ws := by
  induction h with
  | nil => exact .nil
  | cons hvw _ ih =>
    simp only [anyMark, Bool.or_eq_false_iff] at hm hm'
    exact .cons (coupled_iff.2 ⟨hvw, hm.1, hm'.1⟩) (ih hm.2 hm'.2)

theorem coupled_fields {as bs : Fields Value} (h : Fields.Related Approximates as bs)
    (hm : anyFieldMark as = false) (hm' : anyFieldMark bs = false) :
    Fields.Related coupling.Coupled as bs := by
  induction h with
  | nil => exact .nil
  | cons hvw _ ih =>
    simp only [anyFieldMark, Bool.or_eq_false_iff] at hm hm'
    exact .cons (coupled_iff.2 ⟨hvw, hm.1, hm'.1⟩) (ih hm.2 hm'.2)

theorem view {v w : Value} (h : coupling.Coupled v w) :
    coupling.Free v.isKnown v.isMarked w.isMarked ∨ Alike coupling.Coupled v w := by
  obtain ⟨hvw, hm, hm'⟩ := coupled_iff.1 h
  cases hvw with
  | unknown => exact .inl (.inl ⟨trivial, rfl⟩)
  | null => exact .inr .null
  | bool => exact .inr .bool
  | number => exact .inr .number
  | string => exact .inr .string
  | list hs => exact .inr (.list (coupled_all hs hm hm'))
  | set hk => exact .inr (.set (coupled_all (reflAll hk hm) hm hm))
  | map hs => exact .inr (.map (coupled_fields hs hm hm'))
  | tuple hs => exact .inr (.tuple (coupled_all hs hm hm'))
  | object hs => exact .inr (.object (coupled_fields hs hm hm'))

/-! Functions. -/

/-- Results get known as the arguments do, where the function sees these as they are. -/
def Monotone (f : Builtin) : Prop :=
  ∀ args args' r r', List.Forall₂ Approximates args args' → f.run args = .ok r →
    f.run args' = .ok r' → Approximates r r'

/-- The function does not see marks, and it does not see unknown values or copes with them. -/
def Gradual (f : Builtin) : Prop :=
  f.takesMarked = false ∧ (f.takesUnknown = true → f.impure = false ∧ Monotone f)

theorem gradual_of_shielded {f : Builtin} (hm : f.takesMarked = false)
    (hu : f.takesUnknown = false) : Gradual f := by
  refine ⟨hm, fun h => ?_⟩
  rw [hu] at h
  cases h

theorem gradual_of_plain {f : Builtin} (h : f.IsPlain) : Gradual f :=
  gradual_of_shielded h.1 h.2.1

theorem gradual_unary {run : Value → CallResult} {ty : Ty}
    (h : ∀ a b r r', Approximates a b → run a = .ok r → run b = .ok r' → Approximates r r') :
    Gradual (unary ty run).withUnknown := by
  refine ⟨rfl, fun _ => ⟨rfl, fun args args' r r' hargs hr hr' => ?_⟩⟩
  cases hargs with
  | nil => cases hr
  | cons hab _ => exact h _ _ r r' hab hr hr'

theorem gradual_into {t : Ty} (ht : t.isPrimitive = true) : Gradual (Conversions.into t) := by
  refine gradual_unary fun a b r r' hab hr hr' => ?_
  have converted {a r : Value} (h : Builtin.converted a t = .ok r) : a.convert t = .ok r := by
    rw [Builtin.converted] at h
    split at h
    · cases h
      assumption
    · cases h
  exact hab.convert ht (converted hr) (converted hr')

theorem gradual_conversions :
    ∀ p ∈ Conversions.functions, p.1 ∉ Fragment.abrupt → Gradual p.2 := by
  simp only [Conversions.functions, List.forall_mem_cons]
  and_intros
  all_goals first
    | exact fun _ => gradual_into rfl
    | exact fun hname => absurd (by decide) hname
    | exact List.forall_mem_nil _

theorem gradual_standard {ambient : Library.Ambient} {site : Span} {name : String} {f : Builtin}
    (h : Library.standard ambient site name = some f) (hname : name ∉ Fragment.abrupt) :
    Gradual f := by
  have impure : ∀ p ∈ Library.impureFunctions ambient site, Gradual p.2 := by
    simp only [Library.impureFunctions, List.forall_mem_cons]
    exact ⟨gradual_of_shielded rfl rfl, gradual_of_shielded rfl rfl, List.forall_mem_nil _⟩
  exact Library.of_standard_of_plain (P := fun name f => name ∉ Fragment.abrupt → Gradual f)
    (fun _ _ hplain _ => gradual_of_plain hplain)
    (fun _ _ => gradual_unary fun _ _ _ _ => length) gradual_conversions
    (fun p hp _ => impure p hp) h hname

theorem all_of_coupled {vs ws : List Value} (h : List.Forall₂ coupling.Coupled vs ws) :
    List.Forall₂ Approximates vs ws ∧ anyMark vs = false ∧ anyMark ws = false := by
  induction h with
  | nil => exact ⟨.nil, rfl, rfl⟩
  | cons hvw _ ih =>
    obtain ⟨h, hm, hm'⟩ := coupled_iff.1 hvw
    exact ⟨.cons h ih.1, by rw [anyMark, hm, ih.2.1, Bool.or_self],
      by rw [anyMark, hm', ih.2.2, Bool.or_self]⟩

theorem call {f : Builtin} {pureOnly : Bool} {args args' : List Value} {v w : Value}
    (hkeeps : Keeps (fun v => v.isWhollyKnown = true) f) (hf : Gradual f)
    (hargs : List.Forall₂ coupling.Coupled args args') (hv : f.call pureOnly args = .ok v)
    (hw : f.call pureOnly args' = .ok w) (hm : v.hasMark = false) : Approximates v w := by
  obtain ⟨hargs, hma, hmb⟩ := all_of_coupled hargs
  cases result_of_call hv with
  | skipped => exact .unknown
  | undetermined =>
    rw [Builtin.unknown, hma]
    exact .unknown
  | direct ht =>
    rw [hf.1] at ht
    cases ht
  | @shielded r _ hsees hr =>
    rw [hma] at hm ⊢
    cases hk : allKnown args with
    | true =>
      cases eq_of_allKnown hargs hk
      cases hv.symm.trans hw
      rw [hma]
      exact refl (hkeeps _ (Hereditary.whollyKnown.bareAll args (allKnown_iff.1 hk)) r hr) hm
    | false =>
      have hu : f.takesUnknown = true := hsees.resolve_right (by rw [hk]; exact Bool.false_ne_true)
      obtain ⟨hi, hmono⟩ := hf.2 hu
      cases result_of_call hw with
      | skipped hi' => rw [hi] at hi'; cases hi'
      | undetermined hu' => rw [hu] at hu'; cases hu'
      | direct ht => rw [hf.1] at ht; cases ht
      | shielded _ _ hr' =>
        rw [hmb]
        exact hmono _ _ _ _ (bareAll hargs) hr hr'

/-! Expressions. -/

theorem sound (ambient : Library.Ambient) (pureOnly : Bool) :
    coupling.Sound ⟨Library.standard ambient, pureOnly⟩ Fragment.gradual where
  of_free := by
    rintro v w (⟨_, hk⟩ | ⟨hc, _⟩) hm
    · obtain ⟨t, rfl⟩ := eq_unknown hk hm
      exact .unknown
    · exact hc.elim
  view := view
  marks h := .inr (coupled_iff.1 h).2
  leaf {v} h _ := by
    cases v with
    | null => exact .null
    | unknown => exact .unknown
    | bool => exact .bool
    | number => exact .number
    | string => exact .string
    | _ => cases h
  tuple h _ := .tuple (h.imp fun _ _ h => (coupled_iff.1 h).1)
  object h _ := .object (h.mono fun _ _ h => (coupled_iff.1 h).1)
  equal h h' _ _ _ _ :=
    (equal? (coupled_iff.1 h).1.bare (coupled_iff.1 h').1.bare).imp_left fun h => ⟨trivial, h⟩
  literal h := ⟨fun _ => h.1, fun _ => h.2⟩
  call hF hargs hv hw hm := by
    obtain ⟨f, hf, hv⟩ := callNamed_eq_ok hv
    obtain ⟨g, hg, hw⟩ := callNamed_eq_ok hw
    cases hf.symm.trans hg
    have hne := Fragment.ne_of_not_abrupt hF
    exact call (Hereditary.whollyKnown.keeps_standard hf hne.1 hne.2) (gradual_standard hf hF)
      hargs hv hw hm
  expand _ hc := hc
  unmarked hu := hu
  fit he henv h _ :=
    hasMark_of_unmarked (F := Fragment.gradual) (fun _ h => h.2)
      (fun _ _ => Fragment.ne_of_not_abrupt) he (fun name v hv => henv name v hv trivial) h

end Value.Approximates

/-- Evaluated where more is known of the values of all names, an expression has a result of which
more is known, if both evaluations report nothing. A result that was known throughout is the
same. -/
theorem Eval.approximates_of_gradual {ambient : Library.Ambient} {pureOnly : Bool} {e : Expr}
    {env env' : Env} (he : e.Within Fragment.gradual)
    (henv : ∀ name, Option.Rel Approximates (env.lookup name) (env'.lookup name))
    (hm : ∀ name v, env.lookup name = some v → v.hasMark = false)
    (hm' : ∀ name v, env'.lookup name = some v → v.hasMark = false)
    (h : (eval ⟨Library.standard ambient, pureOnly⟩ env e).diags = [])
    (h' : (eval ⟨Library.standard ambient, pureOnly⟩ env' e).diags = []) :
    Approximates (eval ⟨Library.standard ambient, pureOnly⟩ env e).result
        (eval ⟨Library.standard ambient, pureOnly⟩ env' e).result ∧
      ((eval ⟨Library.standard ambient, pureOnly⟩ env e).result.isWhollyKnown = true →
        (eval ⟨Library.standard ambient, pureOnly⟩ env' e).result =
          (eval ⟨Library.standard ambient, pureOnly⟩ env e).result) := by
  have hcoupled : Approximates.coupling.Envs env env' :=
    Coupling.Envs.of_rel henv fun hv hw h => Approximates.coupled_iff.2 ⟨h, hm _ _ hv, hm' _ _ hw⟩
  have htied := (Approximates.sound ambient pureOnly).eval_tied e he
  have hresult := (Approximates.coupled_iff.1 (htied env env' _ _ hcoupled
    (Report.eq_of_diags rfl h) (Report.eq_of_diags rfl h'))).1
  exact ⟨hresult, fun hk => (hresult.eq_of_isWhollyKnown hk).symm⟩

/-- The length and an item of a list of which one item is not known yet. -/
theorem Eval.approximates_of_gradual_item :
    Approximates
      (eval ⟨Library.standard ⟨"", fun _ => ""⟩, false⟩
        [("xs", list .string [string "a", unknown .string])]
        (.tuple default [.call default "length" [.traversal default "xs" []] false,
          .index default (.traversal default "xs" []) (.literal default (ofNat 1))])).result
      (eval ⟨Library.standard ⟨"", fun _ => ""⟩, false⟩
        [("xs", list .string [string "a", string "b"])]
        (.tuple default [.call default "length" [.traversal default "xs" []] false,
          .index default (.traversal default "xs" []) (.literal default (ofNat 1))])).result := by
  have he : Expr.Within Fragment.gradual
      (.tuple default [.call default "length" [.traversal default "xs" []] false,
        .index default (.traversal default "xs" []) (.literal default (ofNat 1))]) :=
    ⟨⟨(by decide : "length" ∉ Fragment.abrupt), List.forall_mem_nil _, trivial⟩,
      ⟨List.forall_mem_nil _, .number, rfl⟩, trivial⟩
  have unmarked {name : String} {v w : Value} (hw : w.hasMark = false)
      (h : List.lookup name [("xs", w)] = some v) : v.hasMark = false := by
    simp only [List.lookup_cons, List.lookup_nil] at h
    split at h
    · cases h
      exact hw
    · cases h
  refine (approximates_of_gradual he (fun name => ?_) (fun _ _ => unmarked rfl)
    (fun _ _ => unmarked rfl) rfl rfl).1
  simp only [List.lookup_cons, List.lookup_nil]
  split
  · exact .some (.list (.cons .string (.cons .unknown .nil)))
  · exact .none

end StaticConfig

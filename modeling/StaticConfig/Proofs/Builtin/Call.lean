import StaticConfig.Builtin.Library
import StaticConfig.Proofs.Except
import StaticConfig.Proofs.Sensitivity.Parts

/-!
What a call does around a function: it counts the arguments, and unless the function asks for
them it keeps unknown values and marks away from it.
-/
namespace StaticConfig

open Value

namespace Builtin

variable {f : Builtin} {pureOnly : Bool} {args : List Value} {v : Value}

/-- Where the result of a call comes from. -/
inductive Result (f : Builtin) (pureOnly : Bool) (args : List Value) : Value → Prop
  | skipped : f.impure = true → pureOnly = true → Result f pureOnly args (.unknown f.result)
  | undetermined : f.takesUnknown = false → allKnown args = false →
      Result f pureOnly args (f.unknown args)
  | direct {v : Value} : f.takesMarked = true → f.run args = .ok v → Result f pureOnly args v
  | shielded {v : Value} : f.takesMarked = false → f.takesUnknown = true ∨ allKnown args = true →
      f.run (bareAll args) = .ok v → Result f pureOnly args (markIf (anyMark args) v)

theorem result_of_call (h : f.call pureOnly args = .ok v) : Result f pureOnly args v := by
  obtain ⟨_, _, h⟩ := Except.bind_eq_ok.1 h
  split at h
  · rename_i hi
    cases h
    rw [Bool.and_eq_true] at hi
    exact .skipped hi.1 hi.2
  split at h
  · rename_i hu
    cases h
    simp only [Bool.and_eq_true, Bool.not_eq_true'] at hu
    exact .undetermined hu.1 hu.2
  · rename_i hu
    split at h
    · exact .direct ‹_› h
    · rename_i hm
      obtain ⟨r, hr, rfl⟩ := Except.map_eq_ok.1 h
      refine .shielded (Bool.not_eq_true _ ▸ hm) ?_ hr
      cases ht : f.takesUnknown with
      | true => exact .inl rfl
      | false =>
        cases hk : allKnown args with
        | true => exact .inr rfl
        | false => simp [ht, hk] at hu

/-- A call with nothing to keep away from the function runs it. -/
theorem call_eq_run (hcount : f.checkCount args.length = .ok ()) (hpure : f.impure = false)
    (hknown : f.takesUnknown = true ∨ allKnown args = true) (hbare : bareAll args = args)
    (hmark : anyMark args = false) (pureOnly : Bool) : f.call pureOnly args = f.run args := by
  have hunknown : (!f.takesUnknown && !allKnown args) = false := by
    rcases hknown with hknown | hknown
    · rw [hknown]
      rfl
    · rw [hknown, Bool.not_true, Bool.and_false]
  have hmap : (f.run args).map (markIf false) = f.run args := by
    cases f.run args with
    | error e => rfl
    | ok v => rfl
  simp only [call, hcount, hpure, hunknown, hbare, hmark, hmap, bind, Except.bind, Bool.false_and,
    Bool.false_eq_true, if_false, ite_self]

theorem count_of_call (h : f.call pureOnly args = .ok v) : f.checkCount args.length = .ok () := by
  obtain ⟨_, hc, _⟩ := Except.bind_eq_ok.1 h
  exact hc

theorem of_checkCount {count : Nat} (h : f.checkCount count = .ok ()) :
    f.least ≤ count ∧ ∀ most, f.most = some most → count ≤ most := by
  unfold checkCount at h
  split at h
  · cases h
  · next hleast =>
    refine ⟨Nat.not_lt.1 hleast, fun most hmost => ?_⟩
    rw [hmost] at h
    split at h
    · next heq =>
      cases heq
      split at h
      · cases h
      · next hle => exact Nat.not_lt.1 hle
    · next heq => cases heq

theorem args_eq_nil (hmost : f.most = some 0) (h : f.call pureOnly args = .ok v) : args = [] :=
  List.length_eq_zero_iff.1 (Nat.le_zero.1 ((of_checkCount (count_of_call h)).2 0 hmost))

/-- A function that does not look at marks passes them on. -/
theorem isMarked_of_call (hm : f.takesMarked = false) (himpure : f.impure = true → f.most = some 0)
    (hmark : anyMark args = true) (h : f.call pureOnly args = .ok v) : v.isMarked = true := by
  cases result_of_call h with
  | skipped hi _ =>
    rw [args_eq_nil (himpure hi) h] at hmark
    cases hmark
  | undetermined => rw [unknown, isMarked_markIf, hmark, Bool.true_or]
  | direct ht => rw [hm] at ht; cases ht
  | shielded => rw [isMarked_markIf, hmark, Bool.true_or]

/-- The function does not see marks, and where its result rests on more than its arguments it has
none. -/
def Shields (f : Builtin) : Prop :=
  f.takesMarked = false ∧ (f.impure = true → f.most = some 0)

/-- The function sees neither marks nor unknown values, and nothing but its arguments. -/
def IsPlain (f : Builtin) : Prop :=
  f.takesMarked = false ∧ f.takesUnknown = false ∧ f.impure = false

instance : DecidablePred IsPlain := fun _ => inferInstanceAs (Decidable (_ ∧ _ ∧ _))

theorem IsPlain.shields {f : Builtin} (h : f.IsPlain) : f.Shields :=
  ⟨h.1, fun hi => by rw [h.2.2] at hi; cases hi⟩

theorem isPlain_encodings : ∀ p ∈ Encodings.functions, IsPlain p.2 := by
  decide

theorem isPlain_numbers : ∀ p ∈ Numbers.functions, IsPlain p.2 := by
  decide

theorem isPlain_texts : ∀ p ∈ Texts.functions, IsPlain p.2 := by
  decide

theorem isPlain_collections : ∀ p ∈ Collections.functions,
    IsPlain p.2 ∨ p.2 = (unary .number Collections.length).withUnknown := by
  simp only [Collections.functions, List.forall_mem_cons]
  and_intros
  all_goals first | exact .inl ⟨rfl, rfl, rfl⟩ | exact .inr trivial | exact List.forall_mem_nil _

theorem isPlain_definitions {evaluate : Expr → Report Value} :
    ∀ p ∈ Definitions.functions evaluate, IsPlain p.2 := by
  simp only [Definitions.functions, List.forall_mem_cons]
  exact ⟨⟨rfl, rfl, rfl⟩, ⟨rfl, rfl, rfl⟩, ⟨rfl, rfl, rfl⟩, List.forall_mem_nil _⟩

end Builtin

namespace Eval

theorem callNamed_of_call {s : Setting} {name : String} {args : List Value} {span : Span}
    {f : Builtin} {v : Value} (hf : s.library span name = some f)
    (hcall : f.call s.pureOnly args = .ok v) : callNamed s name args span = .ok v := by
  simp only [callNamed, hf, hcall]

theorem callNamed_eq_ok {s : Setting} {name : String} {args : List Value} {span : Span} {v : Value}
    (h : callNamed s name args span = .ok v) :
    ∃ f, s.library span name = some f ∧ f.call s.pureOnly args = .ok v := by
  rw [callNamed] at h
  split at h
  · cases h
  · rename_i f hf
    refine ⟨f, hf, ?_⟩
    split at h
    · cases h
      assumption
    · cases h

end Eval

namespace Library

open Builtin

variable {ambient : Ambient} {site : Span} {name : String} {f : Builtin}

theorem mem_of_lookup {l : List (String × Builtin)} (h : l.lookup name = some f) :
    (name, f) ∈ l := by
  obtain ⟨before, after, rfl, _⟩ := List.lookup_eq_some_iff.1 h
  simp

/-- How the functions of the standard library evaluate the definitions they read. -/
def evaluator (ambient : Ambient) : Expr → Report Value :=
  Eval.constant (nested ambient (depthLimit - 1))

/-- What holds of all functions of the modules that make up the library holds of the library,
however it evaluates expressions. -/
theorem of_withEvaluator {evaluate : Expr → Report Value} {P : String → Builtin → Prop}
    (collections : ∀ p ∈ Collections.functions, P p.1 p.2)
    (conversions : ∀ p ∈ Conversions.functions, P p.1 p.2)
    (encodings : ∀ p ∈ Encodings.functions, P p.1 p.2)
    (numbers : ∀ p ∈ Numbers.functions, P p.1 p.2) (texts : ∀ p ∈ Texts.functions, P p.1 p.2)
    (definitions : ∀ p ∈ Definitions.functions evaluate, P p.1 p.2)
    (impure : ∀ p ∈ impureFunctions ambient site, P p.1 p.2)
    (h : withEvaluator ambient evaluate site name = some f) : P name f := by
  rw [withEvaluator, Option.or_eq_some_iff, Option.or_eq_some_iff] at h
  rcases h with (h | ⟨_, h⟩) | ⟨_, h⟩
  · have hmem := mem_of_lookup h
    simp only [plainFunctions, List.mem_append] at hmem
    rcases hmem with (((h | h) | h) | h) | h
    · exact collections _ h
    · exact conversions _ h
    · exact encodings _ h
    · exact numbers _ h
    · exact texts _ h
  · exact definitions _ (mem_of_lookup h)
  · exact impure _ (mem_of_lookup h)

/-- All functions but `length`, the conversions and the impure ones are plain. -/
theorem of_standard_of_plain {P : String → Builtin → Prop}
    (plain : ∀ name f, f.IsPlain → P name f)
    (length : ∀ name, P name (unary .number Collections.length).withUnknown)
    (conversions : ∀ p ∈ Conversions.functions, P p.1 p.2)
    (impure : ∀ p ∈ impureFunctions ambient site, P p.1 p.2)
    (h : standard ambient site name = some f) : P name f := by
  have collections : ∀ p ∈ Collections.functions, P p.1 p.2 := by
    intro p hp
    rcases isPlain_collections p hp with h | h
    · exact plain _ _ h
    · exact h ▸ length p.1
  exact of_withEvaluator collections conversions
    (fun p hp => plain _ _ (isPlain_encodings p hp)) (fun p hp => plain _ _ (isPlain_numbers p hp))
    (fun p hp => plain _ _ (isPlain_texts p hp)) (fun p hp => plain _ _ (isPlain_definitions p hp))
    impure h

/-- The functions that see marks. -/
def seeing : List String := ["sensitive", "nonsensitive", "issensitive"]

theorem shields_conversions : ∀ p ∈ Conversions.functions, p.1 ∉ seeing → p.2.Shields := by
  simp only [Conversions.functions, List.forall_mem_cons]
  refine ⟨fun _ => ?_, fun _ => ?_, fun _ => ?_, fun _ => ?_, fun _ => ?_, fun _ => ?_, ?_, ?_, ?_,
    List.forall_mem_nil _⟩
  case refine_7 | refine_8 | refine_9 => exact fun h => absurd (by decide) h
  all_goals exact ⟨rfl, nofun⟩

theorem shields_standard (h : standard ambient site name = some f) (hname : name ∉ seeing) :
    f.Shields := by
  have impure : ∀ p ∈ impureFunctions ambient site, p.2.Shields := by
    simp only [impureFunctions, List.forall_mem_cons]
    exact ⟨⟨rfl, fun _ => rfl⟩, ⟨rfl, fun _ => rfl⟩, List.forall_mem_nil _⟩
  exact of_standard_of_plain (P := fun name f => name ∉ seeing → f.Shields)
    (fun _ _ hplain _ => hplain.shields) (fun _ _ => ⟨rfl, nofun⟩) shields_conversions
    (fun p hp _ => impure p hp) h hname

end Library

end StaticConfig

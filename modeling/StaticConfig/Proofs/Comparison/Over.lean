import Mathlib
import StaticConfig.Proofs.Conversion.Hereditary

/-!
Values whose numbers are of a class. What holds of the equality of these numbers then holds of the
equality of the values.
-/
namespace StaticConfig

namespace Number

/-- Whole numbers, which are kept and compared exactly. -/
def Whole (n : Number) : Prop := ∃ i, n = int i

theorem eq_self_of_whole {n : Number} (h : n.Whole) : n.eq n = true := by
  obtain ⟨i, rfl⟩ := h
  exact beq_self_eq_true i

end Number

namespace Value

variable {S : Number → Prop}

/-- All numbers in the value are of the class. -/
inductive Over (S : Number → Prop) : Value → Prop
  | null {t : Ty} : Over S (.null t)
  | unknown {t : Ty} : Over S (.unknown t)
  | bool {b : Bool} : Over S (.bool b)
  | number {n : Number} : S n → Over S (.number n)
  | string {s : String} : Over S (.string s)
  | list {e : Ty} {items : List Value} : (∀ v ∈ items, Over S v) → Over S (.list e items)
  | set {e : Ty} {items : List Value} : (∀ v ∈ items, Over S v) → Over S (.set e items)
  | map {e : Ty} {entries : Fields Value} : (∀ p ∈ entries, Over S p.2) →
      Over S (.map e entries)
  | tuple {items : List Value} : (∀ v ∈ items, Over S v) → Over S (.tuple items)
  | object {attrs : Fields Value} : (∀ p ∈ attrs, Over S p.2) → Over S (.object attrs)
  | sensitive {v : Value} : Over S v → Over S (.sensitive v)

theorem Over.mark {v : Value} (h : v.Over S) : v.mark.Over S := by
  cases v with
  | sensitive v => exact h
  | _ => exact .sensitive h

theorem partwise_over : Partwise (Over S) where
  list := ⟨fun | .list h => h, .list⟩
  set := ⟨fun | .set h => h, .set⟩
  tuple := ⟨fun | .tuple h => h, .tuple⟩
  map := ⟨fun | .map h => h, .map⟩
  object := ⟨fun | .object h => h, .object⟩
  inner := fun | .sensitive h => h

/-- The numbers in the value, and those that its texts are read as, are of the class. -/
inductive Reads (S : Number → Prop) : Value → Prop
  | null {t : Ty} : Reads S (.null t)
  | unknown {t : Ty} : Reads S (.unknown t)
  | bool {b : Bool} : Reads S (.bool b)
  | number {n : Number} : S n → Reads S (.number n)
  | string {s : String} : (∀ n, Number.read s = .ok n → S n) → Reads S (.string s)
  | list {e : Ty} {items : List Value} : (∀ v ∈ items, Reads S v) → Reads S (.list e items)
  | set {e : Ty} {items : List Value} : (∀ v ∈ items, Reads S v) → Reads S (.set e items)
  | map {e : Ty} {entries : Fields Value} : (∀ p ∈ entries, Reads S p.2) →
      Reads S (.map e entries)
  | tuple {items : List Value} : (∀ v ∈ items, Reads S v) → Reads S (.tuple items)
  | object {attrs : Fields Value} : (∀ p ∈ attrs, Reads S p.2) → Reads S (.object attrs)
  | sensitive {v : Value} : Reads S v → Reads S (.sensitive v)

theorem partwise_reads : Partwise (Reads S) where
  list := ⟨fun | .list h => h, .list⟩
  set := ⟨fun | .set h => h, .set⟩
  tuple := ⟨fun | .tuple h => h, .tuple⟩
  map := ⟨fun | .map h => h, .map⟩
  object := ⟨fun | .object h => h, .object⟩
  inner := fun | .sensitive h => h

mutual

theorem Over.same_self (hself : ∀ n, S n → n.eq n = true) : ∀ {v : Value}, v.Over S →
    same v v = true
  | .null t, _ | .unknown t, _ => beq_self_eq_true t
  | .bool b, _ => beq_self_eq_true b
  | .number n, .number hn => hself n hn
  | .string s, _ => beq_self_eq_true s
  | .list _ _, .list h => by rw [same, beq_self_eq_true, Over.sameAll_self hself h]; rfl
  | .set _ _, .set h => by rw [same, beq_self_eq_true, Over.sameAll_self hself h]; rfl
  | .map _ _, .map h => by rw [same, beq_self_eq_true, Over.sameFields_self hself h]; rfl
  | .tuple _, .tuple h => by rw [same, Over.sameAll_self hself h]
  | .object _, .object h => by rw [same, Over.sameFields_self hself h]
  | .sensitive _, .sensitive h => by rw [same, Over.same_self hself h]

theorem Over.sameAll_self (hself : ∀ n, S n → n.eq n = true) : ∀ {vs : List Value},
    (∀ v ∈ vs, v.Over S) → sameAll vs vs = true
  | [], _ => rfl
  | v :: vs, h => by
    obtain ⟨hv, hvs⟩ := List.forall_mem_cons.1 h
    rw [sameAll, Over.same_self hself hv, Over.sameAll_self hself hvs]
    rfl

theorem Over.sameFields_self (hself : ∀ n, S n → n.eq n = true) :
    ∀ {fields : List (String × Value)}, (∀ p ∈ fields, p.2.Over S) →
    sameFields fields fields = true
  | [], _ => rfl
  | (k, v) :: rest, h => by
    obtain ⟨hv, hrest⟩ := List.forall_mem_cons.1 h
    rw [sameFields, beq_self_eq_true, Over.same_self hself hv, Over.sameFields_self hself hrest]
    rfl

end

/-! The numbers in the result of a conversion. -/

namespace Reads

theorem toOver {v : Value} (h : v.Reads S) : v.Over S := by
  induction h with
  | null => exact .null
  | unknown => exact .unknown
  | bool => exact .bool
  | number hn => exact .number hn
  | string _ => exact .string
  | list _ ih => exact .list ih
  | set _ ih => exact .set ih
  | map _ ih => exact .map ih
  | tuple _ ih => exact .tuple ih
  | object _ ih => exact .object ih
  | sensitive _ ih => exact .sensitive ih

theorem over_of_convertPrimitive {v r : Value} {want : Ty} (hv : v.Reads S)
    (h : convertPrimitive v want = .ok r) : r.Over S := by
  unfold convertPrimitive at h
  split at h
  · obtain rfl := Except.ok.inj h
    exact hv.toOver
  · obtain rfl := Except.ok.inj h
    exact .bool
  · split at h
    · obtain rfl := Except.ok.inj h
      exact .bool
    · split at h
      · obtain rfl := Except.ok.inj h
        exact .bool
      · cases h
  · obtain rfl := Except.ok.inj h
    exact hv.toOver
  · split at h
    · rename_i hread
      obtain rfl := Except.ok.inj h
      cases hv with
      | string hs => exact .number (hs _ hread)
    · cases h
  · obtain rfl := Except.ok.inj h
    exact .string
  · obtain rfl := Except.ok.inj h
    exact .string
  · obtain rfl := Except.ok.inj h
    exact .string
  · cases h

theorem over_of_converts {v r : Value} {want : Ty} (h : Converts v want r) (hv : v.Reads S) :
    r.Over S := by
  induction h with
  | sensitive _ ih =>
    cases hv with
    | sensitive hv => exact (ih hv).mark
  | dynamic _ => exact hv.toOver
  | null _ => exact .null
  | unknown _ _ => exact .unknown
  | primitive _ h => exact hv.over_of_convertPrimitive h
  | list hitems _ hlength _ ih =>
    have hparts := partwise_reads.items? hv hitems
    exact .list (forall_mem_of_getElem? hlength fun i a r ha hr =>
      ih i a r ha hr (hparts a (List.mem_of_getElem? ha)))
  | set hitems _ hlength _ ih =>
    have hparts := partwise_reads.items? hv hitems
    exact partwise_over.setOf (forall_mem_of_getElem? hlength fun i a r ha hr =>
      ih i a r ha hr (hparts a (List.mem_of_getElem? ha)))
  | tuple hitems hts hlength _ ih =>
    have hparts := partwise_reads.items? hv hitems
    refine .tuple (forall_mem_of_getElem? hlength fun i a r ha hr => ?_)
    obtain ⟨hlt, -⟩ := List.getElem?_eq_some_iff.1 ha
    have ht := List.getElem?_eq_getElem (hts ▸ hlt)
    exact ih i a _ r ha ht hr (hparts a (List.mem_of_getElem? ha))
  | map hentries _ hkeys _ ih =>
    have hparts := partwise_reads.entries? hv hentries
    exact .map (forall_mem_of_getElem? (Fields.length_eq_of_keys hkeys) fun i a r ha hr =>
      ih i a r ha hr (hparts a (List.mem_of_getElem? ha)))
  | @object _ entries fields attrs _ hentries hkeys _ hnull ih =>
    have hparts := partwise_reads.entries? hv hentries
    refine .object (forall_mem_of_getElem? (Fields.length_eq_of_keys hkeys) fun i p q hp hq => ?_)
    cases ha : Fields.get? p.1 entries with
    | some a =>
      obtain ⟨t, ht⟩ := Fields.exists_get?_of_mem_keys
        (List.mem_map_of_mem (List.mem_of_getElem? hp))
      exact ih i p q a t hp hq ha ht (hparts _ (Fields.mem_of_get? ha))
    | none =>
      rw [hnull i p q hp hq ha]
      exact .null

theorem over_of_convertItems {items rs : List Value} {want : Ty} {start : Nat}
    (hitems : ∀ v ∈ items, v.Reads S) (h : convertItems start items want = .ok rs) :
    ∀ r ∈ rs, r.Over S := by
  obtain ⟨hlength, hparts⟩ := converts_of_convertItems items h
  exact forall_mem_of_getElem? hlength fun i a r ha hr =>
    over_of_converts (hparts i a r ha hr) (hitems a (List.mem_of_getElem? ha))

end Reads

end Value

/-!
Equality of numbers. Whole numbers are compared exactly, and with a double as doubles, so a double
may equal two different whole numbers of more than 53 bits. Where this does not happen, equality is
transitive.
-/

namespace Double

open Float.Model.UnpackedFloat in
theorem beq_iff (f g : Float) : (f == g) = true ↔
    f.toModel.unpack ≠ notANumber ∧ g.toModel.unpack ≠ notANumber ∧
      (f.toModel.unpack = g.toModel.unpack ∨
        f.toModel.unpack = zero .positive ∧ g.toModel.unpack = zero .negative ∨
          f.toModel.unpack = zero .negative ∧ g.toModel.unpack = zero .positive) :=
  beq_iff_ne_notANumber_and_eq _ _

theorem beq_symm {f g : Float} (h : (f == g) = true) : (g == f) = true := by
  rw [beq_iff] at h ⊢
  grind

theorem beq_comm (f g : Float) : (f == g) = (g == f) :=
  Bool.eq_iff_iff.2 ⟨beq_symm, beq_symm⟩

theorem beq_trans {f g k : Float} (h : (f == g) = true) (h' : (g == k) = true) :
    (f == k) = true := by
  rw [beq_iff] at h h' ⊢
  grind

end Double

namespace Number

theorem eq_comm (a b : Number) : a.eq b = b.eq a := by
  cases a with
  | int m =>
    cases b with
    | int n => exact Bool.beq_comm
    | float g => exact Double.beq_comm _ _
  | float f =>
    cases b with
    | int n => exact Double.beq_comm _ _
    | float g => exact Double.beq_comm _ _

/-- No double of the class equals two different whole numbers of the class. -/
def Coherent (S : Number → Prop) : Prop :=
  ∀ f m n, S (float f) → S (int m) → S (int n) →
    (float f).eq (int m) = true → (float f).eq (int n) = true → m = n

theorem coherent_whole : Coherent Whole := by
  intro f m n hf
  obtain ⟨i, hi⟩ := hf
  cases hi

/-- Between numbers that are not all whole, equality is that of doubles. -/
theorem eq_trans {S : Number → Prop} (hS : Coherent S) {a b c : Number} (ha : S a) (hb : S b)
    (hc : S c) (hab : a.eq b = true) (hbc : b.eq c = true) : a.eq c = true := by
  cases a with
  | int m =>
    cases b with
    | int n =>
      obtain rfl : m = n := eq_of_beq hab
      exact hbc
    | float g =>
      cases c with
      | int k =>
        obtain rfl := hS g m k hb ha hc ((eq_comm _ _).trans hab) hbc
        exact beq_self_eq_true m
      | float k => exact Double.beq_trans hab hbc
  | float f =>
    cases b with
    | int n =>
      cases c with
      | int k =>
        obtain rfl : n = k := eq_of_beq hbc
        exact hab
      | float k => exact Double.beq_trans hab hbc
    | float g =>
      cases c with
      | int k => exact Double.beq_trans hab hbc
      | float k => exact Double.beq_trans hab hbc

end Number

end StaticConfig

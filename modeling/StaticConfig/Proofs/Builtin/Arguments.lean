import StaticConfig.Builtin.Collections
import StaticConfig.Proofs.Except
import StaticConfig.Proofs.Fields

/-!
What functions find in their arguments.
-/
namespace StaticConfig

open StaticConfig.Except

theorem Value.convert?_eq_some_iff {v w : Value} {t : Ty} :
    v.convert? t = some w ↔ v.convert t = .ok w := by
  rw [convert?]
  cases v.convert t <;> simp [Except.toOption]

namespace Builtin

theorem asString_string (s : String) : asString (.string s) = .ok s := rfl

theorem asNumber_number (n : Number) : asNumber (.number n) = .ok n := rfl

theorem asWhole_int (n : Int64) : asWhole (.number (.int n)) = .ok n := rfl

theorem items?_of_asSequence {v : Value} {items : List Value} (h : asSequence v = .ok items) :
    v.items? = some items := by
  obtain ⟨_, _, h⟩ := bind_eq_ok.1 h
  split at h
  · cases h
    assumption
  · cases h

theorem entries?_of_asMapping {v : Value} {entries : Fields Value}
    (h : asMapping v = .ok entries) : v.entries? = some entries := by
  obtain ⟨_, _, h⟩ := bind_eq_ok.1 h
  split at h
  · cases h
    assumption
  · cases h

theorem convertedAll_eq_some_iff {t : Ty} {vs ws : List Value} :
    convertedAll t vs = some ws ↔ List.Forall₂ (fun v w => v.convert t = .ok w) vs ws := by
  induction vs generalizing ws with
  | nil => simp [convertedAll, eq_comm]
  | cons v vs ih =>
    rw [convertedAll] at ih
    simp only [convertedAll, List.mapM_cons, Option.bind_eq_bind, Option.bind_eq_some_iff,
      Value.convert?_eq_some_iff, ih, Option.pure_def, Option.some.injEq,
      List.forall₂_cons_left_iff]
    constructor
    · rintro ⟨w, hw, ws', hws, rfl⟩
      exact ⟨w, ws', hw, hws, rfl⟩
    · rintro ⟨w, ws', hw, hws, rfl⟩
      exact ⟨w, hw, ws', hws, rfl⟩

/-- What holds of the values of all the mappings holds of those of the mapping made of them. -/
theorem Collections.forall_mergedInto {P : Value → Prop} {acc entries : Fields Value}
    {vs : List Value} (hacc : ∀ p ∈ acc, P p.2)
    (hvs : ∀ v ∈ vs, ∀ es, v.entries? = some es → ∀ p ∈ es, P p.2)
    (h : mergedInto acc vs = .ok entries) : ∀ p ∈ entries, P p.2 := by
  induction vs generalizing acc with
  | nil =>
    cases h
    exact hacc
  | cons v vs ih =>
    obtain ⟨hv, hvs⟩ := List.forall_mem_cons.1 hvs
    rw [mergedInto] at h
    split at h
    · exact ih hacc hvs h
    · obtain ⟨es, hes, h⟩ := bind_eq_ok.1 h
      refine ih (fun p hp => ?_) hvs h
      exact (Fields.mem_insertAll hp).elim (hv es (entries?_of_asMapping hes) p) (hacc p)

end Builtin

end StaticConfig

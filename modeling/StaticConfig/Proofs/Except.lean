/-!
When a chain of computations that may fail succeeds.
-/
namespace StaticConfig.Except

variable {ε α β : Type}

theorem bind_eq_ok {x : Except ε α} {f : α → Except ε β} {b : β} :
    (x >>= f) = .ok b ↔ ∃ a, x = .ok a ∧ f a = .ok b := by
  cases x <;> simp [bind, Except.bind]

theorem map_eq_ok {x : Except ε α} {f : α → β} {b : β} :
    x.map f = .ok b ↔ ∃ a, x = .ok a ∧ f a = b := by
  cases x <;> simp [Except.map]

theorem pure_eq_ok {a b : α} : (pure a : Except ε α) = .ok b ↔ a = b := by
  simp [pure, Except.pure]

/-- The result has the property, if there is one. -/
def Ensures (P : α → Prop) (x : Except ε α) : Prop :=
  ∀ a, x = .ok a → P a

variable {P : α → Prop} {Q : β → Prop}

theorem ensures_ok {a : α} (h : P a) : Ensures P (.ok a : Except ε α) := by
  rintro _ ⟨⟩
  exact h

theorem ensures_error {e : ε} : Ensures P (.error e : Except ε α) :=
  fun _ h => nomatch h

theorem ensures_bind {x : Except ε α} {f : α → Except ε β} (hx : Ensures P x)
    (hf : ∀ a, P a → Ensures Q (f a)) : Ensures Q (x >>= f) := by
  intro b hb
  obtain ⟨a, ha, hb⟩ := bind_eq_ok.1 hb
  exact hf a (hx a ha) b hb

/-- Whatever the first computation gives. -/
theorem ensures_then {x : Except ε α} {f : α → Except ε β} (hf : ∀ a, Ensures Q (f a)) :
    Ensures Q (x >>= f) :=
  ensures_bind (P := fun _ => True) (fun _ _ => trivial) fun a _ => hf a

theorem ensures_map {x : Except ε α} {f : α → β} (hf : ∀ a, x = .ok a → Q (f a)) :
    Ensures Q (x.map f) := by
  intro b hb
  obtain ⟨a, ha, rfl⟩ := map_eq_ok.1 hb
  exact hf a ha

theorem ensures_ite {c : Prop} [Decidable c] {x y : Except ε α} (hx : Ensures P x)
    (hy : Ensures P y) : Ensures P (if c then x else y) := by
  split
  · exact hx
  · exact hy

theorem ensures_mapM {f : α → Except ε β} (hf : ∀ a, Ensures Q (f a)) (as : List α) :
    Ensures (fun bs => ∀ b ∈ bs, Q b) (as.mapM f) := by
  induction as with
  | nil => exact ensures_ok nofun
  | cons a as ih =>
    rw [List.mapM_cons]
    exact ensures_bind (hf a) fun b hb => ensures_bind ih fun bs hbs =>
      ensures_ok (List.forall_mem_cons.2 ⟨hb, hbs⟩)

end StaticConfig.Except

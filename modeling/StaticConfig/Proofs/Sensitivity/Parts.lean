import StaticConfig.Proofs.Evaluation.Alike

/-!
Marks on values and on the parts taken from them. What is taken from a value without marks has
none, unless a key brings one.
-/
namespace StaticConfig.Value

theorem isKnown_markIf (m : Bool) (v : Value) : (markIf m v).isKnown = v.isKnown := by
  cases m
  · rfl
  · cases v <;> rfl

theorem isMarked_markIf (m : Bool) (v : Value) : (markIf m v).isMarked = (m || v.isMarked) := by
  cases m
  · rfl
  · exact isMarked_mark v

theorem hasMark_markIf (m : Bool) (v : Value) : (markIf m v).hasMark = (m || v.hasMark) := by
  cases m
  · rfl
  · cases v <;> rfl

theorem isMarked_of_hasMark {v : Value} (h : v.hasMark = false) : v.isMarked = false := by
  cases v <;> first | rfl | cases h

theorem hasMark_of_isMarked {v : Value} (h : v.isMarked = true) : v.hasMark = true := by
  cases v <;> first | rfl | cases h

theorem eq_unknown {v : Value} (h : v.isKnown = false) (hm : v.hasMark = false) :
    ∃ t, v = unknown t := by
  cases v with
  | unknown t => exact ⟨t, rfl⟩
  | sensitive v => cases hm
  | _ => cases h

theorem isKnown_unmarked (v : Value) : v.unmarked.isKnown = v.isKnown := by
  cases v <;> rfl

theorem isKnown_bare (v : Value) : v.bare.isKnown = v.isKnown := by
  cases v with
  | sensitive v => exact isKnown_bare v
  | _ => rfl

theorem bare_eq_unknown : ∀ v : Value, v.isKnown = false → ∃ t, v.bare = unknown t
  | unknown t, _ => ⟨t, rfl⟩
  | sensitive v, h => bare_eq_unknown v h

theorem unmarked_of_hasMark {v : Value} (h : v.hasMark = false) : v.unmarked = v :=
  unmarked_of_isMarked_eq_false (isMarked_of_hasMark h)

/-- The same value, without a mark in it. -/
def EqUnmarked (v w : Value) : Prop :=
  v = w ∧ v.hasMark = false

theorem EqUnmarked.leaf {v : Value} (h : v.isLeaf = true) : EqUnmarked v v := by
  cases v <;> first | exact ⟨rfl, rfl⟩ | cases h

theorem EqUnmarked.all {vs : List Value} (h : anyMark vs = false) :
    List.Forall₂ EqUnmarked vs vs := by
  induction vs with
  | nil => exact .nil
  | cons v vs ih =>
    simp only [anyMark, Bool.or_eq_false_iff] at h
    exact .cons ⟨rfl, h.1⟩ (ih h.2)

theorem EqUnmarked.fields {fields : Fields Value} (h : anyFieldMark fields = false) :
    Fields.Related EqUnmarked fields fields := by
  induction fields with
  | nil => exact .nil
  | cons e rest ih =>
    simp only [anyFieldMark, Bool.or_eq_false_iff] at h
    exact .cons ⟨rfl, h.1⟩ (ih h.2)

theorem EqUnmarked.alike : ∀ {v : Value}, v.hasMark = false → Alike EqUnmarked v v
  | null _, _ => .null
  | unknown _, _ => .unknown
  | bool _, _ => .bool
  | number _, _ => .number
  | string _, _ => .string
  | list _ _, h => .list (EqUnmarked.all h)
  | set _ _, h => .set (EqUnmarked.all h)
  | tuple _, h => .tuple (EqUnmarked.all h)
  | map _ _, h => .map (EqUnmarked.fields h)
  | object _, h => .object (EqUnmarked.fields h)

theorem hasMark_attr {v p : Value} {name : String} {span : Span} (h : v.hasMark = false)
    (hp : v.attr name span = .ok p) : p.hasMark = false := by
  rw [attr, unmarked_of_hasMark h, isMarked_of_hasMark h] at hp
  obtain ⟨a, ha, rfl⟩ := Except.map_eq_ok.1 hp
  exact ((EqUnmarked.alike h).bareAttr (fun _ => EqUnmarked.leaf) ha ha).2

theorem hasMark_element {v key p : Value} {span : Span} (h : v.hasMark = false)
    (hkey : key.hasMark = false) (hp : v.element key span = .ok p) : p.hasMark = false := by
  rw [element, unmarked_of_hasMark h, isMarked_of_hasMark h, hkey] at hp
  obtain ⟨a, ha, rfl⟩ := Except.map_eq_ok.1 hp
  exact ((EqUnmarked.alike h).bareElement (fun _ => EqUnmarked.leaf) rfl rfl (fun _ _ => rfl)
    ha ha).2

theorem hasMark_iterated? {v : Value} {es : List (Value × Value)} (hv : v.hasMark = false)
    (h : v.iterated? = some es) : ∀ e ∈ es, e.1.hasMark = false ∧ e.2.hasMark = false := by
  have hpairs := (EqUnmarked.alike hv).iterated? fun _ => EqUnmarked.leaf
  rw [h] at hpairs
  cases hpairs with
  | some hpairs =>
    intro e he
    have hsame := List.forall₂_same.1 hpairs e he
    exact ⟨hsame.1.2, hsame.2.2⟩

theorem isKnown_bareAttr {v a : Value} {name : String} {span : Span} (h : v.isKnown = false)
    (ha : v.unmarked.bareAttr name span = .ok a) : a.isKnown = false := by
  rw [← isKnown_unmarked] at h
  generalize v.unmarked = u at h ha
  cases u with
  | unknown t => cases t <;> cases ha <;> rfl
  | sensitive u => cases ha
  | _ => cases h

theorem isKnown_bareElement {v key a : Value} {span : Span}
    (h : v.isKnown = false ∨ key.isKnown = false)
    (ha : v.unmarked.bareElement key.bare span = .ok a) : a.isKnown = false := by
  simp only [bareElement] at ha
  split at ha
  · cases ha
  · rcases h with h | h
    · rw [← isKnown_unmarked] at h
      generalize v.unmarked = u at h ha
      cases u with
      | unknown t =>
        cases ha
        rfl
      | sensitive u =>
        simp only at ha
        split at ha
        · cases ha
          rfl
        · cases ha
      | _ => cases h
    · rw [isKnown_bare, h] at ha
      generalize v.unmarked = u at ha
      cases u <;> cases ha <;> rfl

end StaticConfig.Value

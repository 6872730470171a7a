import StaticConfig.Proofs.Sensitivity.Indistinct
import StaticConfig.Value.Printer

/-!
What the text shown for a value reveals. A mark at the top hides the value, but a mark further
inside does not hide its part: the text depends on it. So a value that is known throughout keeps
what is marked to itself exactly when the mark is at the top or when there is none.
-/
namespace StaticConfig.Value

mutual

theorem exists_write? : ∀ (v : Value), v.isWhollyKnown = true → ∃ s, v.write? = some s
  | null _, _ => ⟨_, rfl⟩
  | unknown _, h => by cases h
  | bool _, _ => ⟨_, rfl⟩
  | number _, _ => ⟨_, rfl⟩
  | string _, _ => ⟨_, rfl⟩
  | list _ items, h => by
    obtain ⟨parts, hp⟩ := exists_writeItems? items h
    exact ⟨bracketed parts, by simp only [write?, hp, Option.map]⟩
  | set _ items, h => by
    obtain ⟨parts, hp⟩ := exists_writeItems? items h
    exact ⟨bracketed parts, by simp only [write?, hp, Option.map]⟩
  | tuple items, h => by
    obtain ⟨parts, hp⟩ := exists_writeItems? items h
    exact ⟨bracketed parts, by simp only [write?, hp, Option.map]⟩
  | map _ entries, h => by
    obtain ⟨lines, hl⟩ := exists_writeFields? entries h
    exact ⟨braced lines, by simp only [write?, hl, Option.map]⟩
  | object attrs, h => by
    obtain ⟨lines, hl⟩ := exists_writeFields? attrs h
    exact ⟨braced lines, by simp only [write?, hl, Option.map]⟩
  | sensitive v, h => exists_write? v h

theorem exists_writeItems? : ∀ (vs : List Value), allKnown vs = true →
    ∃ parts, writeItems? vs = some parts
  | [], _ => ⟨[], rfl⟩
  | v :: vs, h => by
    simp only [allKnown, Bool.and_eq_true] at h
    obtain ⟨s, hs⟩ := exists_write? v h.1
    obtain ⟨rest, hr⟩ := exists_writeItems? vs h.2
    exact ⟨s :: rest, by simp only [writeItems?, hs, hr]⟩

theorem exists_writeFields? : ∀ (fields : List (String × Value)), allFieldsKnown fields = true →
    ∃ lines, writeFields? fields = some lines
  | [], _ => ⟨[], rfl⟩
  | (k, v) :: rest, h => by
    simp only [allFieldsKnown, Bool.and_eq_true] at h
    obtain ⟨s, hs⟩ := exists_write? v h.1
    obtain ⟨more, hm⟩ := exists_writeFields? rest h.2
    exact ⟨(nameText k ++ " = " ++ s) :: more, by simp only [writeFields?, hs, hm]⟩

end

/-- The text of a sequence has the text of each item in a fixed place. -/
theorem bracketed_at (before after : List String) :
    ∃ pre post, ∀ s, bracketed (before ++ s :: after) = pre ++ s ++ post := by
  have hgo : ∃ pre post, ∀ s,
      String.intercalate ", " (before ++ s :: after) = pre ++ s ++ post := by
    induction before with
    | nil =>
      cases after with
      | nil => exact ⟨"", "", fun s => by simp⟩
      | cons t ts =>
        refine ⟨"", ", " ++ String.intercalate ", " (t :: ts), fun s => ?_⟩
        simp [String.intercalate_cons_cons, String.append_assoc]
    | cons t ts ih =>
      obtain ⟨pre, post, h⟩ := ih
      refine ⟨t ++ ", " ++ pre, post, fun s => ?_⟩
      rw [List.cons_append, String.intercalate_cons_of_ne_nil (by simp), h s]
      simp only [String.append_assoc]
  obtain ⟨pre, post, h⟩ := hgo
  refine ⟨"[" ++ pre, post ++ "]", fun s => ?_⟩
  simp only [bracketed, h s, String.append_assoc]

theorem braced_at (before after : List String) :
    ∃ pre post, ∀ s, braced (before ++ s :: after) = pre ++ s ++ post := by
  let lines (ls : List String) : String := String.join (ls.map fun l => l ++ "\n")
  refine ⟨"\x7b\n" ++ lines before, "\n" ++ lines after ++ "\x7d", fun s => ?_⟩
  have hne : (before ++ s :: after).isEmpty = false := by simp
  simp [braced, hne, lines, String.join_append, String.append_assoc]

/-- A place of a whole whose contents may change unseen although they determine its text. -/
structure Place {α : Type} (indistinct : α → α → Prop) (known : α → Bool)
    (write : α → Option String) (whole : α) where
  fill : Value → α
  text : String → String
  indistinct_fill : ∀ x, indistinct whole (fill x)
  known_fill : ∀ x, x.isWhollyKnown = true → known (fill x) = true
  write_fill : ∀ x, write (fill x) = x.write?.map text
  text_injective : Function.Injective text

abbrev ValuePlace : Value → Type :=
  Place Indistinct isWhollyKnown write?

/-- A place in the items of a sequence that begins with the items of the given texts. -/
abbrev ItemPlace (before : List String) : List Value → Type :=
  Place (List.Forall₂ Indistinct) allKnown fun vs =>
    (writeItems? vs).map fun parts => bracketed (before ++ parts)

/-- A place in the entries of a mapping that begins with the given lines. -/
abbrev FieldPlace (before : List String) : List (String × Value) → Type :=
  Place (Fields.Related Indistinct) allFieldsKnown fun fields =>
    (writeFields? fields).map fun lines => braced (before ++ lines)

/-- A place in a part is a place in a whole with the same text. -/
def Place.lift {α β : Type} {R : α → α → Prop} {S : β → β → Prop} {known : α → Bool}
    {known' : β → Bool} {write : α → Option String} {write' : β → Option String} {a : α}
    (p : Place R known write a) (wrap : α → β) (hR : ∀ b, R a b → S (wrap a) (wrap b))
    (hk : ∀ b, known b = true → known' (wrap b) = true) (hw : ∀ b, write' (wrap b) = write b) :
    Place S known' write' (wrap a) where
  fill x := wrap (p.fill x)
  text := p.text
  indistinct_fill x := hR _ (p.indistinct_fill x)
  known_fill x hx := hk _ (p.known_fill x hx)
  write_fill x := by rw [hw, p.write_fill]
  text_injective := p.text_injective

theorem injective_of_surround {f : String → String}
    (h : ∃ pre post, ∀ s, f s = pre ++ s ++ post) : Function.Injective f := by
  intro s t heq
  obtain ⟨pre, post, hf⟩ := h
  rw [hf s, hf t] at heq
  exact (String.append_right_inj pre).1 ((String.append_left_inj post).1 heq)

mutual

theorem exists_place : ∀ v : Value, v.hasMark = true → v.isWhollyKnown = true →
    Nonempty (ValuePlace v)
  | null _, hm, _ => by cases hm
  | unknown _, hm, _ => by cases hm
  | bool _, hm, _ => by cases hm
  | number _, hm, _ => by cases hm
  | string _, hm, _ => by cases hm
  | sensitive v, _, _ => ⟨{
      fill := sensitive
      text := id
      indistinct_fill := fun _ => .sensitive
      known_fill := fun _ hx => hx
      write_fill := fun x => by simp only [write?, Option.map_id, id]
      text_injective := fun _ _ h => h }⟩
  | list e items, hm, hk => by
    obtain ⟨p⟩ := exists_itemPlace items [] hm hk
    exact ⟨p.lift (list e) (fun _ => .list) (fun _ h => h) (fun _ => rfl)⟩
  | set e items, hm, hk => by
    obtain ⟨p⟩ := exists_itemPlace items [] hm hk
    exact ⟨p.lift (set e) (fun _ => .set) (fun _ h => h) (fun _ => rfl)⟩
  | tuple items, hm, hk => by
    obtain ⟨p⟩ := exists_itemPlace items [] hm hk
    exact ⟨p.lift tuple (fun _ => .tuple) (fun _ h => h) (fun _ => rfl)⟩
  | map e entries, hm, hk => by
    obtain ⟨p⟩ := exists_fieldPlace entries [] hm hk
    exact ⟨p.lift (map e) (fun _ => .map) (fun _ h => h) (fun _ => rfl)⟩
  | object attrs, hm, hk => by
    obtain ⟨p⟩ := exists_fieldPlace attrs [] hm hk
    exact ⟨p.lift object (fun _ => .object) (fun _ h => h) (fun _ => rfl)⟩

theorem exists_itemPlace : ∀ (vs : List Value) (before : List String), anyMark vs = true →
    allKnown vs = true → Nonempty (ItemPlace before vs)
  | [], _, hm, _ => by cases hm
  | v :: vs, before, hm, hk => by
    simp only [allKnown, Bool.and_eq_true] at hk
    by_cases hv : v.hasMark = true
    · obtain ⟨p⟩ := exists_place v hv hk.1
      obtain ⟨after, ha⟩ := exists_writeItems? vs hk.2
      refine ⟨{
        fill := fun x => p.fill x :: vs
        text := fun s => bracketed (before ++ p.text s :: after)
        indistinct_fill := fun x => .cons (p.indistinct_fill x) (Indistinct.reflAll vs)
        known_fill := fun x hx => ?_
        write_fill := fun x => ?_
        text_injective :=
          (injective_of_surround (bracketed_at before after)).comp p.text_injective }⟩
      · simp only [allKnown, p.known_fill x hx, hk.2, Bool.and_self]
      · simp only [writeItems?, p.write_fill, ha]
        cases x.write? <;> rfl
    · have hvs : anyMark vs = true := by
        simpa only [anyMark, Bool.not_eq_true _ ▸ hv, Bool.false_or] using hm
      obtain ⟨s, hs⟩ := exists_write? v hk.1
      obtain ⟨p⟩ := exists_itemPlace vs (before ++ [s]) hvs hk.2
      refine ⟨p.lift (v :: ·) (fun _ h => .cons (Indistinct.refl v) h) (fun ws h => ?_)
        (fun ws => ?_)⟩
      · simp only [allKnown, hk.1, h, Bool.and_self]
      · simp only [writeItems?, hs]
        cases writeItems? ws with
        | none => rfl
        | some parts => simp

theorem exists_fieldPlace : ∀ (fields : List (String × Value)) (before : List String),
    anyFieldMark fields = true → allFieldsKnown fields = true →
    Nonempty (FieldPlace before fields)
  | [], _, hm, _ => by cases hm
  | (k, v) :: rest, before, hm, hk => by
    simp only [allFieldsKnown, Bool.and_eq_true] at hk
    by_cases hv : v.hasMark = true
    · obtain ⟨p⟩ := exists_place v hv hk.1
      obtain ⟨after, ha⟩ := exists_writeFields? rest hk.2
      refine ⟨{
        fill := fun x => (k, p.fill x) :: rest
        text := fun s => braced (before ++ (nameText k ++ " = " ++ p.text s) :: after)
        indistinct_fill := fun x => .cons (p.indistinct_fill x) (Indistinct.reflFields rest)
        known_fill := fun x hx => ?_
        write_fill := fun x => ?_
        text_injective := fun s t h => ?_ }⟩
      · simp only [allFieldsKnown, p.known_fill x hx, hk.2, Bool.and_self]
      · simp only [writeFields?, p.write_fill, ha]
        cases x.write? <;> rfl
      · have hline := injective_of_surround (braced_at before after) h
        exact p.text_injective ((String.append_right_inj _).1 hline)
    · have hrest : anyFieldMark rest = true := by
        simpa only [anyFieldMark, Bool.not_eq_true _ ▸ hv, Bool.false_or] using hm
      obtain ⟨s, hs⟩ := exists_write? v hk.1
      obtain ⟨p⟩ := exists_fieldPlace rest (before ++ [nameText k ++ " = " ++ s]) hrest hk.2
      refine ⟨p.lift ((k, v) :: ·) (fun _ h => .cons (Indistinct.refl v) h) (fun ws h => ?_)
        (fun ws => ?_)⟩
      · simp only [allFieldsKnown, hk.1, h, Bool.and_self]
      · simp only [writeFields?, hs]
        cases writeFields? ws with
        | none => rfl
        | some lines => simp

end

/-- What is shown of a value that is known throughout depends on nothing marked exactly when the
value itself is marked or nothing in it is. -/
theorem shown_hides_marked_iff {v : Value} (hk : v.isWhollyKnown = true) :
    (∀ w, w.isWhollyKnown = true → Indistinct v w → shown v = shown w) ↔
      v.isMarked = true ∨ v.hasMark = false := by
  constructor
  · intro h
    by_contra hn
    obtain ⟨htop, hm⟩ := not_or.1 hn
    obtain ⟨p⟩ := exists_place v (Bool.not_eq_false _ ▸ hm) hk
    have hw (x : Value) (s : String) (hx : x.isWhollyKnown = true) (hs : x.write? = some s) :
        shown v = p.text s := by
      have hfill := p.indistinct_fill x
      rw [h (p.fill x) (p.known_fill x hx) hfill, shown, ← hfill.isMarked_eq]
      simp [htop, p.write_fill, hs]
    have htf : p.text "true" = p.text "false" :=
      (hw (bool true) "true" rfl rfl).symm.trans (hw (bool false) "false" rfl rfl)
    exact absurd (p.text_injective htf) (by decide)
  · rintro (htop | hm) w hw h
    · simp [shown, ← h.isMarked_eq, htop]
    · rw [h.eq_of_hasMark hm]

theorem shown_hides_marked_iff_item :
    (tuple [sensitive (string "a")]).isWhollyKnown = true ∧
      ((∀ w, w.isWhollyKnown = true → Indistinct (tuple [sensitive (string "a")]) w →
        shown (tuple [sensitive (string "a")]) = shown w) ↔
      (tuple [sensitive (string "a")]).isMarked = true ∨
        (tuple [sensitive (string "a")]).hasMark = false) :=
  ⟨rfl, shown_hides_marked_iff rfl⟩

/-- Two values that differ in a marked item only are shown differently. -/
theorem shown_reveals_marked_item :
    (tuple [sensitive (string "a")]).isWhollyKnown = true ∧
      (tuple [sensitive (string "b")]).isWhollyKnown = true ∧
      Indistinct (tuple [sensitive (string "a")]) (tuple [sensitive (string "b")]) ∧
      shown (tuple [sensitive (string "a")]) ≠ shown (tuple [sensitive (string "b")]) :=
  ⟨rfl, rfl, .tuple (.cons .sensitive .nil), by decide⟩

end StaticConfig.Value

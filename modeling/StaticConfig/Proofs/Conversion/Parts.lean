import StaticConfig.Proofs.Conversion.Collected

/-!
Conversion to each kind of type, from the parts of the value: when it succeeds, and with which
result. The wanted types have no `dynamic`, so the elements of a collection convert to the type that
is asked for.
-/
namespace StaticConfig.Value

/-- The items of a list or tuple, which can become a tuple. -/
def ordered? : Value → Option (List Value)
  | list _ items => some items
  | tuple items => some items
  | _ => none

variable {v r : Value} {items rs : List Value} {entries fields : Fields Value} {e : Ty}
  {ts : List Ty} {attrs : Fields Ty} {optional : Names}

theorem items?_of_ordered? (h : v.ordered? = some items) : v.items? = some items := by
  cases v <;> first | exact h | cases h

theorem convert_list (hitems : v.items? = some items) (he : e.hasDynamic = false) :
    convert v (.list e) = (convertItems 0 items e).map (list e) := by
  have htarget : elementTarget .mixedElements e (types items) = .ok e := by
    rw [elementTarget, he]
    rfl
  cases v <;> cases hitems <;> simp only [convert, sequenceTo, htarget] <;> rfl

theorem convert_set (hitems : v.items? = some items) (he : e.hasDynamic = false) :
    convert v (.set e) = (convertItems 0 items e).map (setOf e) := by
  have htarget : elementTarget .mixedElements e (types items) = .ok e := by
    rw [elementTarget, he]
    rfl
  cases v <;> cases hitems <;> simp only [convert, sequenceTo, htarget] <;> rfl

theorem convert_tuple (hitems : v.ordered? = some items) (hlength : items.length = ts.length) :
    convert v (.tuple ts) = (convertEach 0 items ts).map tuple := by
  cases v <;> cases hitems <;> simp only [convert, sequenceTo, hlength] <;> rfl

theorem convert_map (hentries : v.entries? = some entries) (he : e.hasDynamic = false) :
    convert v (.map e) = (convertEntries entries e).map (map e) := by
  have htarget : elementTarget .mixedEntries e (Fields.values (fieldTypes entries)) = .ok e := by
    rw [elementTarget, he]
    rfl
  cases v <;> cases hentries <;> simp only [convert, mappingTo, htarget] <;> rfl

theorem convert_object (hentries : v.entries? = some entries) :
    convert v (.object attrs optional) =
      (collectAttrs (convertAttrs entries attrs) optional attrs).map object := by
  cases v <;> cases hentries <;> rfl

/-- Only a list or a tuple of the right length becomes a tuple. -/
theorem ordered?_of_convert_tuple (hitems : v.items? = some items)
    (h : convert v (.tuple ts) = .ok r) :
    v.ordered? = some items ∧ items.length = ts.length := by
  have hlength {u : Value} {ordered : Bool} {all : Ty → Except ConversionError (List Value)}
      {each : List Ty → Except ConversionError (List Value)}
      (h : sequenceTo u items ordered all each (.tuple ts) = .ok r) :
      ordered = true ∧ items.length = ts.length := by
    cases ordered with
    | false => cases h
    | true =>
      simp only [sequenceTo] at h
      split at h
      · next hn => cases hn
      · split at h
        · exact ⟨rfl, ‹_›⟩
        · cases h
  cases v with
  | list t vs => cases hitems; exact ⟨rfl, (hlength h).2⟩
  | set t vs => cases hitems; cases (hlength h).1
  | tuple vs => cases hitems; exact ⟨rfl, (hlength h).2⟩
  | _ => cases hitems

/-- A sequence converts to sequences only. -/
theorem isSequence_of_convert {want : Ty} (hitems : v.items? = some items)
    (hwant : want ≠ .dynamic) (h : convert v want = .ok r) : want.isSequence = true := by
  cases want with
  | dynamic => contradiction
  | list e => rfl
  | set e => rfl
  | tuple ts => rfl
  | _ => cases v <;> cases hitems <;> cases h

/-- A mapping converts to mappings only. -/
theorem isMapping_of_convert {want : Ty} (hentries : v.entries? = some entries)
    (hwant : want ≠ .dynamic) (h : convert v want = .ok r) : want.isMapping = true := by
  cases want with
  | dynamic => contradiction
  | map e => rfl
  | object attrs optional => rfl
  | _ => cases v <;> cases hentries <;> cases h

/-! Parts that convert, place by place. -/

theorem convertItems_iff_places {want : Ty} {start : Nat} :
    convertItems start items want = .ok rs ↔ rs.length = items.length ∧
      ∀ (i : Nat) a r, items[i]? = some a → rs[i]? = some r → convert a want = .ok r := by
  induction items generalizing start rs with
  | nil =>
    rw [convertItems, Except.ok.injEq, eq_comm]
    simp
  | cons v vs ih =>
    rw [convertItems]
    constructor
    · intro h
      split at h
      · cases h
      · next x hx =>
        obtain ⟨more, hmore, rfl⟩ := Except.map_eq_ok.1 h
        obtain ⟨hlength, hparts⟩ := ih.1 hmore
        refine ⟨congrArg Nat.succ hlength, fun i a r ha hr => ?_⟩
        cases i with
        | zero =>
          cases ha
          cases hr
          exact hx
        | succ i => exact hparts i a r ha hr
    · rintro ⟨hlength, hparts⟩
      cases rs with
      | nil => cases hlength
      | cons x more =>
        have hmore : convertItems (start + 1) vs want = .ok more :=
          ih.2 ⟨Nat.succ.inj hlength, fun i => hparts (i + 1)⟩
        rw [hparts 0 v x rfl rfl, hmore]
        rfl

theorem convertEach_iff_places {start : Nat} (hlength : items.length = ts.length) :
    convertEach start items ts = .ok rs ↔ rs.length = items.length ∧
      ∀ (i : Nat) a t r, items[i]? = some a → ts[i]? = some t → rs[i]? = some r →
        convert a t = .ok r := by
  induction items generalizing ts start rs with
  | nil =>
    rw [convertEach, Except.ok.injEq, eq_comm]
    · simp
    · rintro _ _ _ _ ⟨⟩
  | cons v vs ih =>
    cases ts with
    | nil => cases hlength
    | cons t ts =>
      have ih {more : List Value} := @ih more ts (start + 1) (Nat.succ.inj hlength)
      rw [convertEach]
      constructor
      · intro h
        split at h
        · cases h
        · next x hx =>
          obtain ⟨more, hmore, rfl⟩ := Except.map_eq_ok.1 h
          obtain ⟨hrest, hparts⟩ := ih.1 hmore
          refine ⟨congrArg Nat.succ hrest, fun i a u r ha hu hr => ?_⟩
          cases i with
          | zero =>
            cases ha
            cases hu
            cases hr
            exact hx
          | succ i => exact hparts i a u r ha hu hr
      · rintro ⟨hrest, hparts⟩
        cases rs with
        | nil => cases hrest
        | cons x more =>
          have hmore : convertEach (start + 1) vs ts = .ok more :=
            ih.2 ⟨Nat.succ.inj hrest, fun i => hparts (i + 1)⟩
          rw [hparts 0 v t x rfl rfl rfl, hmore]
          rfl

theorem convertEntries_iff_places {want : Ty} :
    convertEntries entries want = .ok fields ↔ Fields.keys fields = Fields.keys entries ∧
      ∀ (i : Nat) p q, entries[i]? = some p → fields[i]? = some q →
        convert p.2 want = .ok q.2 := by
  induction entries generalizing fields with
  | nil =>
    rw [convertEntries, Except.ok.injEq, eq_comm]
    simp [Fields.keys]
  | cons p rest ih =>
    obtain ⟨k, v⟩ := p
    rw [convertEntries]
    constructor
    · intro h
      split at h
      · cases h
      · next x hx =>
        obtain ⟨more, hmore, rfl⟩ := Except.map_eq_ok.1 h
        obtain ⟨hkeys, hparts⟩ := ih.1 hmore
        refine ⟨congrArg (k :: ·) hkeys, fun i p q hp hq => ?_⟩
        cases i with
        | zero =>
          cases hp
          cases hq
          exact hx
        | succ i => exact hparts i p q hp hq
    · rintro ⟨hkeys, hparts⟩
      cases fields with
      | nil => cases hkeys
      | cons q more =>
        obtain ⟨hk, hrest⟩ := List.cons.inj hkeys
        obtain ⟨l, x⟩ := q
        obtain rfl : l = k := hk
        have hmore : convertEntries rest want = .ok more :=
          ih.2 ⟨hrest, fun i => hparts (i + 1)⟩
        rw [hparts 0 (l, v) (l, x) rfl rfl, hmore]
        rfl

theorem collectAttrs_iff_places {converted : Fields (Except ConversionError Value)} :
    collectAttrs converted optional attrs = .ok fields ↔
      Fields.keys fields = Fields.keys attrs ∧
      ∀ (i : Nat) p q, attrs[i]? = some p → fields[i]? = some q →
        Fields.get? p.1 converted = some (.ok q.2) ∨
          Fields.get? p.1 converted = none ∧ optional.contains p.1 = true ∧ q.2 = null p.2 := by
  induction attrs generalizing fields with
  | nil =>
    rw [collectAttrs, Except.ok.injEq, eq_comm]
    simp [Fields.keys]
  | cons p rest ih =>
    obtain ⟨k, t⟩ := p
    constructor
    · intro h
      -- Both ways of keeping the attribute continue with the same rest.
      have hcons (x : Value) (hx : Fields.get? k converted = some (.ok x) ∨
            Fields.get? k converted = none ∧ optional.contains k = true ∧ x = null t)
          (h : (collectAttrs converted optional rest).map ((k, x) :: ·) = .ok fields) :
          Fields.keys fields = Fields.keys ((k, t) :: rest) ∧
          ∀ (i : Nat) p q, ((k, t) :: rest)[i]? = some p → fields[i]? = some q →
            Fields.get? p.1 converted = some (.ok q.2) ∨ Fields.get? p.1 converted = none ∧
              optional.contains p.1 = true ∧ q.2 = null p.2 := by
        obtain ⟨more, hmore, rfl⟩ := Except.map_eq_ok.1 h
        obtain ⟨hkeys, hparts⟩ := ih.1 hmore
        refine ⟨congrArg (k :: ·) hkeys, fun i p q hp hq => ?_⟩
        cases i with
        | zero =>
          cases hp
          cases hq
          exact hx
        | succ i => exact hparts i p q hp hq
      rw [collectAttrs] at h
      split at h
      · next x hx => exact hcons x (.inl hx) h
      · cases h
      · next hnone =>
        split at h
        · next hoptional => exact hcons (null t) (.inr ⟨hnone, hoptional, rfl⟩) h
        · cases h
    · rintro ⟨hkeys, hparts⟩
      cases fields with
      | nil => cases hkeys
      | cons q more =>
        obtain ⟨hk, hrest⟩ := List.cons.inj hkeys
        obtain ⟨l, x⟩ := q
        obtain rfl : l = k := hk
        have hmore : collectAttrs converted optional rest = .ok more :=
          ih.2 ⟨hrest, fun i => hparts (i + 1)⟩
        rw [collectAttrs]
        obtain hget | ⟨hget, hoptional, rfl⟩ := hparts 0 (l, t) (l, x) rfl rfl
        · rw [hget, hmore]
          rfl
        · rw [hget, if_pos hoptional, hmore]
          rfl

/-- A mapping converts to an object exactly when its attributes do and no other is required. -/
theorem convert_object_eq_ok_iff (hentries : v.entries? = some entries)
    (hattrs : Fields.Sorted attrs) :
    convert v (.object attrs optional) = .ok r ↔ ∃ fields, r = object fields ∧
      Fields.keys fields = Fields.keys attrs ∧
      ∀ name t x, Fields.get? name attrs = some t → Fields.get? name fields = some x →
        (∀ a, Fields.get? name entries = some a → convert a t = .ok x) ∧
        (Fields.get? name entries = none → optional.contains name = true ∧ x = null t) := by
  have hget (name : String) (t : Ty) (ht : Fields.get? name attrs = some t) :
      Fields.get? name (convertAttrs entries attrs) =
        (Fields.get? name entries).map fun a => convert a t := by
    rw [get?_convertAttrs, ht]
    cases Fields.get? name entries <;> rfl
  rw [convert_object hentries, Except.map_eq_ok]
  constructor
  · rintro ⟨fields, hfields, rfl⟩
    obtain ⟨hkeys, hparts⟩ := collectAttrs_iff_places.1 hfields
    refine ⟨fields, rfl, hkeys, fun name t x ht hx => ?_⟩
    obtain ⟨i, hq, hp⟩ := Fields.exists_getElem?_of_get? hkeys hx ht
    have hx := hparts i _ _ hp hq
    rw [hget name t ht] at hx
    refine ⟨fun a ha => ?_, fun ha => ?_⟩
    · simpa [ha] using hx
    · simpa [ha] using hx
  · rintro ⟨fields, rfl, hkeys, hparts⟩
    refine ⟨fields, collectAttrs_iff_places.2 ⟨hkeys, fun i p q hp hq => ?_⟩, rfl⟩
    have hsorted : Fields.Sorted fields :=
      (Fields.sorted_iff_keys fields).2 (hkeys ▸ (Fields.sorted_iff_keys attrs).1 hattrs)
    have ht := Fields.get?_of_mem hattrs (List.mem_of_getElem? hp)
    have hx := Fields.get?_of_mem hsorted (List.mem_of_getElem? hq)
    rw [Fields.name_eq_of_keys hkeys hq hp] at hx
    obtain ⟨hsome, hnone⟩ := hparts p.1 p.2 q.2 ht hx
    rw [hget p.1 p.2 ht]
    cases ha : Fields.get? p.1 entries with
    | some a => exact .inl (congrArg some (hsome a ha))
    | none => exact .inr ⟨rfl, hnone ha⟩

end StaticConfig.Value

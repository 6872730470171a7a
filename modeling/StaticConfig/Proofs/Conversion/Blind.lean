import StaticConfig.Proofs.Comparison.Same

/-!
Conversion is blind to marks: a value converts as it does without its marks, or fails at the same
part for the same reason. Sets are where this is at stake, as a marked element is not equal to an
unmarked one. It needs that equality is transitive on the numbers that come up, those that texts
are read as included.
-/
namespace StaticConfig.Value

variable {S : Number → Prop}

/-- No set is in the value. -/
inductive SetFree : Value → Prop
  | null {t : Ty} : SetFree (.null t)
  | unknown {t : Ty} : SetFree (.unknown t)
  | bool {b : Bool} : SetFree (.bool b)
  | number {n : Number} : SetFree (.number n)
  | string {s : String} : SetFree (.string s)
  | list {e : Ty} {items : List Value} : (∀ v ∈ items, SetFree v) → SetFree (.list e items)
  | map {e : Ty} {entries : Fields Value} : (∀ p ∈ entries, SetFree p.2) →
      SetFree (.map e entries)
  | tuple {items : List Value} : (∀ v ∈ items, SetFree v) → SetFree (.tuple items)
  | object {attrs : Fields Value} : (∀ p ∈ attrs, SetFree p.2) → SetFree (.object attrs)
  | sensitive {v : Value} : SetFree v → SetFree (.sensitive v)

namespace SetFree

theorem inner {v : Value} (h : SetFree (.sensitive v)) : v.SetFree := by
  cases h with
  | sensitive h => exact h

theorem items? {v : Value} {items : List Value} (h : v.SetFree) (hitems : v.items? = some items) :
    ∀ a ∈ items, a.SetFree := by
  cases h with
  | list h => cases hitems; exact h
  | tuple h => cases hitems; exact h
  | _ => cases hitems

theorem entries? {v : Value} {entries : Fields Value} (h : v.SetFree)
    (hentries : v.entries? = some entries) : ∀ p ∈ entries, p.2.SetFree := by
  cases h with
  | map h => cases hentries; exact h
  | object h => cases hentries; exact h
  | _ => cases hentries

end SetFree

/-! One level of a conversion, with and without marks. -/

theorem map_bare_convertPrimitive {v : Value} (hv : v.bare = v) (want : Ty) :
    (convertPrimitive v want).map bare = convertPrimitive v want := by
  cases h : convertPrimitive v want with
  | error e => rfl
  | ok r =>
    refine congrArg Except.ok ?_
    rcases convertPrimitive_cases h with ⟨_, rfl⟩ | ⟨_, b, rfl⟩ | ⟨_, n, rfl⟩ | ⟨_, s, rfl⟩
    · exact hv
    · rfl
    · rfl
    · rfl

theorem length_bareAll (vs : List Value) : (bareAll vs).length = vs.length := by
  rw [bareAll_eq_map, List.length_map]

theorem sequenceTo_bareAll (hS : Number.Coherent S) (v : Value) (items : List Value)
    {ordered : Bool} {all all' : Ty → Except ConversionError (List Value)}
    {each each' : List Ty → Except ConversionError (List Value)}
    (hall : ∀ e, all' e = (all e).map bareAll) (heach : ∀ es, each' es = (each es).map bareAll)
    (hover : ∀ e rs, all e = .ok rs → ∀ r ∈ rs, r.Over S) (want : Ty) :
    sequenceTo v.bare (bareAll items) ordered all' each' want =
      (sequenceTo v items ordered all each want).map bare := by
  cases want with
  | list e =>
    rw [sequenceTo, sequenceTo, types_bareAll]
    cases elementTarget .mixedElements e (types items) with
    | error err => rfl
    | ok t =>
      simp only [bind, Except.bind, hall]
      cases all t <;> rfl
  | set e =>
    rw [sequenceTo, sequenceTo, types_bareAll]
    cases elementTarget .mixedElements e (types items) with
    | error err => rfl
    | ok t =>
      simp only [bind, Except.bind, hall]
      cases h : all t with
      | error err => rfl
      | ok rs =>
        refine congrArg Except.ok ?_
        rw [bare_setOf hS t (hover t rs h), bareAll_eq_map]
  | tuple elems =>
    rw [sequenceTo, sequenceTo, length_bareAll, heach]
    split
    · rfl
    · split
      · cases each elems <;> rfl
      · rfl
  | _ => rfl

theorem collectAttrs_mapValues_bare (converted : Fields (Except ConversionError Value))
    (optional : Names) (attrs : List (String × Ty)) :
    collectAttrs (converted.mapValues fun r => r.map bare) optional attrs =
      (collectAttrs converted optional attrs).map bareFields := by
  induction attrs with
  | nil => rfl
  | cons a rest ih =>
    obtain ⟨name, t⟩ := a
    rw [collectAttrs, collectAttrs, Fields.get?_mapValues, ih]
    cases Fields.get? name converted with
    | none =>
      simp only [Option.map_none]
      split
      · cases collectAttrs converted optional rest <;> rfl
      · rfl
    | some r =>
      cases r with
      | error e => rfl
      | ok v => cases collectAttrs converted optional rest <;> rfl

theorem mappingTo_bareFields (v : Value) (entries : Fields Value)
    {all all' : Ty → Except ConversionError (Fields Value)}
    {named named' : List (String × Ty) → Fields (Except ConversionError Value)}
    (hall : ∀ e, all' e = (all e).map bareFields)
    (hnamed : ∀ attrs, named' attrs = (named attrs).mapValues fun r => r.map bare) (want : Ty) :
    mappingTo v.bare (bareFields entries) all' named' want =
      (mappingTo v entries all named want).map bare := by
  cases want with
  | map e =>
    rw [mappingTo, mappingTo, fieldTypes_bareFields]
    cases elementTarget .mixedEntries e (Fields.values (fieldTypes entries)) with
    | error err => rfl
    | ok t =>
      simp only [bind, Except.bind, hall]
      cases all t <;> rfl
  | object attrs optional =>
    rw [mappingTo, mappingTo, hnamed, collectAttrs_mapValues_bare]
    cases collectAttrs (named attrs) optional attrs <;> rfl
  | _ => rfl

mutual

/-- By induction on the value, one lemma for each way of converting its parts. -/
theorem bare_convert (hS : Number.Coherent S) : ∀ {v : Value}, v.Reads S → v.SetFree →
    ∀ want : Ty, v.bare.convert want = (v.convert want).map bare
  | .sensitive v, hv, hfree, want => by
    rw [bare, bare_convert hS (partwise_reads.inner hv) hfree.inner want, convert]
    cases v.convert want with
    | error e => rfl
    | ok r => exact congrArg Except.ok (bare_mark r).symm
  | .null t, _, _, want => rfl
  | .unknown t, _, _, want => by
    show convert (unknown t) want = (convert (unknown t) want).map bare
    rw [convert]
    split
    · rfl
    · split <;> rfl
  | .bool b, _, _, want => (map_bare_convertPrimitive rfl want).symm
  | .number n, _, _, want => (map_bare_convertPrimitive rfl want).symm
  | .string s, _, _, want => (map_bare_convertPrimitive rfl want).symm
  | .list t items, hv, hfree, want =>
    have hitems := partwise_reads.list.1 hv
    have hparts := hfree.items? rfl
    sequenceTo_bareAll hS (list t items) items (bareAll_convertItems hS hitems hparts 0)
      (bareAll_convertEach hS hitems hparts 0) (fun _ _ => Reads.over_of_convertItems hitems) want
  | .tuple items, hv, hfree, want =>
    have hitems := partwise_reads.tuple.1 hv
    have hparts := hfree.items? rfl
    sequenceTo_bareAll hS (tuple items) items (bareAll_convertItems hS hitems hparts 0)
      (bareAll_convertEach hS hitems hparts 0) (fun _ _ => Reads.over_of_convertItems hitems) want
  | .map t entries, hv, hfree, want =>
    have hentries := partwise_reads.map.1 hv
    have hparts := hfree.entries? rfl
    mappingTo_bareFields (map t entries) entries (bareFields_convertEntries hS hentries hparts)
      (bareFields_convertAttrs hS hentries hparts) want
  | .object attrs, hv, hfree, want =>
    have hentries := partwise_reads.object.1 hv
    have hparts := hfree.entries? rfl
    mappingTo_bareFields (object attrs) attrs (bareFields_convertEntries hS hentries hparts)
      (bareFields_convertAttrs hS hentries hparts) want

theorem bareAll_convertItems (hS : Number.Coherent S) : ∀ {items : List Value},
    (∀ v ∈ items, v.Reads S) → (∀ v ∈ items, v.SetFree) → ∀ (start : Nat) (want : Ty),
    convertItems start (bareAll items) want = (convertItems start items want).map bareAll
  | [], _, _, _, _ => rfl
  | v :: vs, h, hfree, start, want => by
    obtain ⟨hv, hvs⟩ := List.forall_mem_cons.1 h
    obtain ⟨hvfree, hvsfree⟩ := List.forall_mem_cons.1 hfree
    rw [bareAll, convertItems, convertItems, bare_convert hS hv hvfree,
      bareAll_convertItems hS hvs hvsfree (start + 1) want]
    cases convert v want with
    | error e => rfl
    | ok r => cases convertItems (start + 1) vs want <;> rfl

theorem bareAll_convertEach (hS : Number.Coherent S) : ∀ {items : List Value},
    (∀ v ∈ items, v.Reads S) → (∀ v ∈ items, v.SetFree) → ∀ (start : Nat) (wants : List Ty),
    convertEach start (bareAll items) wants = (convertEach start items wants).map bareAll
  | [], _, _, _, _ => by
    rw [bareAll, convertEach]
    · rfl
    · nofun
  | _ :: _, _, _, _, [] => rfl
  | v :: vs, h, hfree, start, t :: ts => by
    obtain ⟨hv, hvs⟩ := List.forall_mem_cons.1 h
    obtain ⟨hvfree, hvsfree⟩ := List.forall_mem_cons.1 hfree
    rw [bareAll, convertEach, convertEach, bare_convert hS hv hvfree,
      bareAll_convertEach hS hvs hvsfree (start + 1) ts]
    cases convert v t with
    | error e => rfl
    | ok r => cases convertEach (start + 1) vs ts <;> rfl

theorem bareFields_convertEntries (hS : Number.Coherent S) : ∀ {entries : List (String × Value)},
    (∀ p ∈ entries, p.2.Reads S) → (∀ p ∈ entries, p.2.SetFree) → ∀ want : Ty,
    convertEntries (bareFields entries) want = (convertEntries entries want).map bareFields
  | [], _, _, _ => rfl
  | (k, v) :: rest, h, hfree, want => by
    obtain ⟨hv, hrest⟩ := List.forall_mem_cons.1 h
    obtain ⟨hvfree, hrestfree⟩ := List.forall_mem_cons.1 hfree
    rw [bareFields, convertEntries, convertEntries, bare_convert hS hv hvfree,
      bareFields_convertEntries hS hrest hrestfree want]
    cases convert v want with
    | error e => rfl
    | ok r => cases convertEntries rest want <;> rfl

theorem bareFields_convertAttrs (hS : Number.Coherent S) : ∀ {entries : List (String × Value)},
    (∀ p ∈ entries, p.2.Reads S) → (∀ p ∈ entries, p.2.SetFree) →
    ∀ attrs : List (String × Ty), convertAttrs (bareFields entries) attrs =
      (convertAttrs entries attrs).mapValues fun r => r.map bare
  | [], _, _, _ => rfl
  | (k, v) :: rest, h, hfree, attrs => by
    obtain ⟨hv, hrest⟩ := List.forall_mem_cons.1 h
    obtain ⟨hvfree, hrestfree⟩ := List.forall_mem_cons.1 hfree
    rw [bareFields, convertAttrs, convertAttrs, bareFields_convertAttrs hS hrest hrestfree attrs]
    cases Fields.get? k attrs with
    | none => rfl
    | some t =>
      show (k, v.bare.convert t) :: _ = _
      rw [bare_convert hS hv hvfree]
      rfl

end

/-- A value and the same value without marks convert to the same result up to marks, or fail with
the same error. -/
theorem convert_blind {v : Value} (hS : Number.Coherent S) (hv : v.Reads S) (hfree : v.SetFree)
    (want : Ty) :
    (∀ r, v.convert want = .ok r → v.bare.convert want = .ok r.bare) ∧
      ∀ e, v.convert want = .error e → v.bare.convert want = .error e := by
  rw [bare_convert hS hv hfree want]
  constructor
  · intro r h
    rw [h]
    rfl
  · intro e h
    rw [h]
    rfl

/-- Texts and a number become a set of numbers, in which a marked element equals an unmarked one. -/
theorem convert_blind_texts :
    let v := tuple [sensitive (string "1"), ofNat 1, string "2"]
    v.bare.convert (.set .number) = .ok (set .number [ofNat 1, ofNat 2]) := by
  intro v
  have hread (s : String) (i : Int64) (h : Number.read s = .ok (.int i)) :
      (string s).Reads Number.Whole :=
    .string fun n hn => ⟨i, Except.ok.inj (hn.symm.trans h)⟩
  have hv : v.Reads Number.Whole := by
    refine .tuple (List.forall_mem_cons.2 ⟨?_, List.forall_mem_cons.2 ⟨?_, ?_⟩⟩)
    · exact .sensitive (hread "1" 1 rfl)
    · exact .number ⟨1, rfl⟩
    · exact List.forall_mem_singleton.2 (hread "2" 2 rfl)
  have hfree : v.SetFree := by
    refine .tuple (List.forall_mem_cons.2 ⟨.sensitive .string, ?_⟩)
    exact List.forall_mem_cons.2 ⟨.number, List.forall_mem_singleton.2 .string⟩
  have h : v.convert (.set .number) =
      .ok (set .number [sensitive (ofNat 1), ofNat 1, ofNat 2]) := rfl
  exact (convert_blind Number.coherent_whole hv hfree _).1 _ h

/-- Read as doubles, two different whole numbers equal a third number. So the marked one of them
stays, is not equal to the third one, and which of the others are dropped depends on it. -/
theorem convert_not_blind :
    let v := tuple
      [sensitive (string "20000000000000000"), string "2e16", string "20000000000000001"]
    v.bare.convert (.set .number) ≠ (v.convert (.set .number)).map bare := by
  intro v h
  have hmarked :
      (((v.convert (.set .number)).map bare).toOption.bind items?).map List.length = some 1 := by
    decide +kernel
  have hplain :
      ((v.bare.convert (.set .number)).toOption.bind items?).map List.length = some 2 := by
    decide +kernel
  rw [h, hmarked] at hplain
  cases hplain

end StaticConfig.Value

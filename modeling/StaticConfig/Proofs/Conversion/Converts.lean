import StaticConfig.Proofs.Conversion.Collected

/-!
What a conversion that succeeds makes of a value, part by part. The recursion of conversion is
followed here once; what converted values have in common with the values they come from, or with
the types that were wanted, is then shown by induction on `Converts`.
-/
namespace StaticConfig.Value

/-- The value converts to the type, with the last value as the result. -/
inductive Converts : Value → Ty → Value → Prop
  | sensitive {v r : Value} {t : Ty} : Converts v t r → Converts (.sensitive v) t r.mark
  | dynamic {v : Value} : v.isMarked = false → Converts v .dynamic v
  | null {t u : Ty} : t ≠ .dynamic → Converts (.null u) t (.null t)
  | unknown {t u : Ty} : t ≠ .dynamic → u.mayConvert t = true → Converts (.unknown u) t (.unknown t)
  | primitive {v r : Value} {t : Ty} : t ≠ .dynamic → convertPrimitive v t = .ok r →
      Converts v t r
  | list {v : Value} {items rs : List Value} {e t : Ty} : v.items? = some items →
      elementTarget .mixedElements e (types items) = .ok t → rs.length = items.length →
      (∀ (i : Nat) a r, items[i]? = some a → rs[i]? = some r → Converts a t r) →
      Converts v (.list e) (.list t rs)
  | set {v : Value} {items rs : List Value} {e t : Ty} : v.items? = some items →
      elementTarget .mixedElements e (types items) = .ok t → rs.length = items.length →
      (∀ (i : Nat) a r, items[i]? = some a → rs[i]? = some r → Converts a t r) →
      Converts v (.set e) (setOf t rs)
  | tuple {v : Value} {items rs : List Value} {ts : List Ty} : v.items? = some items →
      ts.length = items.length → rs.length = items.length →
      (∀ (i : Nat) a t r, items[i]? = some a → ts[i]? = some t → rs[i]? = some r → Converts a t r) →
      Converts v (.tuple ts) (.tuple rs)
  | map {v : Value} {entries rs : Fields Value} {e t : Ty} : v.entries? = some entries →
      elementTarget .mixedEntries e (Fields.values (fieldTypes entries)) = .ok t →
      Fields.keys rs = Fields.keys entries →
      (∀ (i : Nat) a r, entries[i]? = some a → rs[i]? = some r → Converts a.2 t r.2) →
      Converts v (.map e) (.map t rs)
  | object {v : Value} {entries fields : Fields Value} {attrs : Fields Ty} {optional : Names} :
      v.entries? = some entries → Fields.keys fields = Fields.keys attrs →
      (∀ (i : Nat) p q a t, attrs[i]? = some p → fields[i]? = some q →
        Fields.get? p.1 entries = some a → Fields.get? p.1 attrs = some t → Converts a t q.2) →
      (∀ (i : Nat) p q, attrs[i]? = some p → fields[i]? = some q →
        Fields.get? p.1 entries = none → q.2 = .null p.2) →
      Converts v (.object attrs optional) (.object fields)

/-- What holds of every item that is made from another one holds of all of them. -/
theorem forall_mem_of_getElem? {α β : Type} {P : β → Prop} {as : List α} {bs : List β}
    (hlength : bs.length = as.length)
    (h : ∀ (i : Nat) a b, as[i]? = some a → bs[i]? = some b → P b) : ∀ b ∈ bs, P b := by
  intro b hb
  obtain ⟨i, hi⟩ := List.mem_iff_getElem?.1 hb
  obtain ⟨hlt, -⟩ := List.getElem?_eq_some_iff.1 hi
  exact h i as[i] b (List.getElem?_eq_getElem (hlength ▸ hlt)) hi

namespace Converts

theorem of_primitive {v r : Value} {want : Ty} (hv : v.isMarked = false)
    (h : convertPrimitive v want = .ok r) : Converts v want r := by
  by_cases hwant : want = .dynamic
  · subst hwant
    obtain ⟨-, rfl⟩ | ⟨hne, -⟩ | ⟨hne, -⟩ | ⟨hne, -⟩ := convertPrimitive_cases h
    · exact .dynamic hv
    · cases hne
    · cases hne
    · cases hne
  · exact .primitive hwant h

theorem of_sequence {v r : Value} {items : List Value} {ordered : Bool}
    {all : Ty → Except ConversionError (List Value)}
    {each : List Ty → Except ConversionError (List Value)} {want : Ty}
    (hv : v.isMarked = false) (hitems : v.items? = some items)
    (hall : ∀ t rs, all t = .ok rs → rs.length = items.length ∧
      ∀ (i : Nat) a r, items[i]? = some a → rs[i]? = some r → Converts a t r)
    (heach : ∀ ts rs, each ts = .ok rs → items.length = ts.length → rs.length = items.length ∧
      ∀ (i : Nat) a t r, items[i]? = some a → ts[i]? = some t → rs[i]? = some r → Converts a t r)
    (h : sequenceTo v items ordered all each want = .ok r) : Converts v want r := by
  cases want with
  | dynamic =>
    obtain rfl := Except.ok.inj h
    exact .dynamic hv
  | list e =>
    obtain ⟨t, ht, h⟩ := Except.bind_eq_ok.1 h
    obtain ⟨rs, hrs, rfl⟩ := Except.map_eq_ok.1 h
    obtain ⟨hlength, hparts⟩ := hall t rs hrs
    exact .list hitems ht hlength hparts
  | set e =>
    obtain ⟨t, ht, h⟩ := Except.bind_eq_ok.1 h
    obtain ⟨rs, hrs, rfl⟩ := Except.map_eq_ok.1 h
    obtain ⟨hlength, hparts⟩ := hall t rs hrs
    exact .set hitems ht hlength hparts
  | tuple ts =>
    simp only [sequenceTo] at h
    split at h
    · cases h
    · split at h
      · rename_i hlen
        obtain ⟨rs, hrs, rfl⟩ := Except.map_eq_ok.1 h
        obtain ⟨hlength, hparts⟩ := heach ts rs hrs hlen
        exact .tuple hitems hlen.symm hlength hparts
      · cases h
  | _ => cases h

theorem of_mapping {v r : Value} {entries : Fields Value}
    {all : Ty → Except ConversionError (Fields Value)}
    {named : List (String × Ty) → Fields (Except ConversionError Value)} {want : Ty}
    (hv : v.isMarked = false) (hentries : v.entries? = some entries)
    (hall : ∀ t rs, all t = .ok rs → Fields.keys rs = Fields.keys entries ∧
      ∀ (i : Nat) a r, entries[i]? = some a → rs[i]? = some r → Converts a.2 t r.2)
    (hnamed : ∀ attrs, named attrs = convertAttrs entries attrs)
    (hattr : ∀ name a t r, Fields.get? name entries = some a → convert a t = .ok r →
      Converts a t r)
    (h : mappingTo v entries all named want = .ok r) : Converts v want r := by
  cases want with
  | dynamic =>
    obtain rfl := Except.ok.inj h
    exact .dynamic hv
  | map e =>
    obtain ⟨t, ht, h⟩ := Except.bind_eq_ok.1 h
    obtain ⟨rs, hrs, rfl⟩ := Except.map_eq_ok.1 h
    obtain ⟨hkeys, hparts⟩ := hall t rs hrs
    exact .map hentries ht hkeys hparts
  | object attrs optional =>
    obtain ⟨fields, hf, rfl⟩ := Except.map_eq_ok.1 h
    rw [hnamed] at hf
    obtain ⟨hkeys, hparts, hnull⟩ := of_collectAttrs_convertAttrs hf
    exact .object hentries hkeys (fun i p q a t hp hq ha ht =>
      hattr p.1 a t q.2 ha (hparts i p q a t hp hq ha ht)) hnull
  | _ => cases h

end Converts

mutual

theorem converts_of_convert : ∀ (v : Value) {want : Ty} {r : Value}, convert v want = .ok r →
    Converts v want r
  | .sensitive v, want, r, h => by
    simp only [convert] at h
    obtain ⟨x, hx, rfl⟩ := Except.map_eq_ok.1 h
    exact .sensitive (converts_of_convert v hx)
  | .null t, want, r, h => by
    obtain rfl := Except.ok.inj h
    by_cases hwant : want = .dynamic
    · subst hwant
      exact .dynamic rfl
    · rw [if_neg (by simpa using hwant)]
      exact .null hwant
  | .unknown t, want, r, h => by
    simp only [convert] at h
    split at h
    · rename_i hwant
      obtain rfl := beq_iff_eq.1 hwant
      obtain rfl := Except.ok.inj h
      exact .dynamic rfl
    · rename_i hwant
      split at h
      · rename_i hmay
        obtain rfl := Except.ok.inj h
        exact .unknown (by simpa using hwant) hmay
      · cases h
  | .bool b, want, r, h => .of_primitive rfl h
  | .number n, want, r, h => .of_primitive rfl h
  | .string s, want, r, h => .of_primitive rfl h
  | .list t items, want, r, h =>
    .of_sequence rfl rfl (fun _ _ => converts_of_convertItems items)
      (fun _ _ => converts_of_convertEach items) h
  | .set t items, want, r, h =>
    .of_sequence rfl rfl (fun _ _ => converts_of_convertItems items)
      (fun _ _ => converts_of_convertEach items) h
  | .tuple items, want, r, h =>
    .of_sequence rfl rfl (fun _ _ => converts_of_convertItems items)
      (fun _ _ => converts_of_convertEach items) h
  | .map t entries, want, r, h =>
    .of_mapping rfl rfl (fun _ _ => converts_of_convertEntries entries) (fun _ => rfl)
      (fun _ _ _ _ => converts_of_convertAttr entries) h
  | .object attrs, want, r, h =>
    .of_mapping rfl rfl (fun _ _ => converts_of_convertEntries attrs) (fun _ => rfl)
      (fun _ _ _ _ => converts_of_convertAttr attrs) h

theorem converts_of_convertItems : ∀ (items : List Value) {want : Ty} {start : Nat}
    {rs : List Value}, convertItems start items want = .ok rs → rs.length = items.length ∧
      ∀ (i : Nat) a r, items[i]? = some a → rs[i]? = some r → Converts a want r
  | [], want, start, rs, h => by
    obtain rfl := Except.ok.inj h
    exact ⟨rfl, nofun⟩
  | v :: vs, want, start, rs, h => by
    simp only [convertItems] at h
    split at h
    · cases h
    · rename_i x hx
      obtain ⟨more, hmore, rfl⟩ := Except.map_eq_ok.1 h
      obtain ⟨hlength, hparts⟩ := converts_of_convertItems vs hmore
      refine ⟨congrArg Nat.succ hlength, fun i a r ha hr => ?_⟩
      cases i with
      | zero =>
        obtain rfl := Option.some.inj ha
        obtain rfl := Option.some.inj hr
        exact converts_of_convert v hx
      | succ i => exact hparts i a r ha hr

theorem converts_of_convertEach : ∀ (items : List Value) {wants : List Ty} {start : Nat}
    {rs : List Value}, convertEach start items wants = .ok rs → items.length = wants.length →
      rs.length = items.length ∧
      ∀ (i : Nat) a t r, items[i]? = some a → wants[i]? = some t → rs[i]? = some r → Converts a t r
  | [], wants, start, rs, h, _ => by
    simp only [convertEach] at h
    obtain rfl := Except.ok.inj h
    exact ⟨rfl, nofun⟩
  | _ :: _, [], _, _, _, hlen => nomatch hlen
  | v :: vs, t :: ts, start, rs, h, hlen => by
    simp only [convertEach] at h
    split at h
    · cases h
    · rename_i x hx
      obtain ⟨more, hmore, rfl⟩ := Except.map_eq_ok.1 h
      obtain ⟨hlength, hparts⟩ := converts_of_convertEach vs hmore (Nat.succ.inj hlen)
      refine ⟨congrArg Nat.succ hlength, fun i a u r ha hu hr => ?_⟩
      cases i with
      | zero =>
        obtain rfl := Option.some.inj ha
        obtain rfl := Option.some.inj hu
        obtain rfl := Option.some.inj hr
        exact converts_of_convert v hx
      | succ i => exact hparts i a u r ha hu hr

theorem converts_of_convertEntries : ∀ (entries : List (String × Value)) {want : Ty}
    {rs : Fields Value}, convertEntries entries want = .ok rs →
      Fields.keys rs = Fields.keys entries ∧
      ∀ (i : Nat) a r, entries[i]? = some a → rs[i]? = some r → Converts a.2 want r.2
  | [], want, rs, h => by
    obtain rfl := Except.ok.inj h
    exact ⟨rfl, nofun⟩
  | (k, v) :: rest, want, rs, h => by
    simp only [convertEntries] at h
    split at h
    · cases h
    · rename_i x hx
      obtain ⟨more, hmore, rfl⟩ := Except.map_eq_ok.1 h
      obtain ⟨hkeys, hparts⟩ := converts_of_convertEntries rest hmore
      refine ⟨congrArg (k :: ·) hkeys, fun i a r ha hr => ?_⟩
      cases i with
      | zero =>
        obtain rfl := Option.some.inj ha
        obtain rfl := Option.some.inj hr
        exact converts_of_convert v hx
      | succ i => exact hparts i a r ha hr

theorem converts_of_convertAttr : ∀ (entries : List (String × Value)) {name : String}
    {a : Value} {t : Ty} {r : Value}, Fields.get? name entries = some a → convert a t = .ok r →
      Converts a t r
  | [], _, _, _, _, ha, _ => nomatch ha
  | (k, v) :: rest, name, a, t, r, ha, h => by
    by_cases hk : k = name
    · simp only [Fields.get?, hk, if_true, Option.some.injEq] at ha
      subst ha
      exact converts_of_convert v h
    · simp only [Fields.get?, hk, if_false] at ha
      exact converts_of_convertAttr rest ha h

end

/-!
Conversion when no type is asked for. It changes only values whose marks stand directly inside each
other, and no conversion gives such a value.
-/

theorem convert_dynamic {v : Value} (h : v.isMarked = false) : v.convert .dynamic = .ok v := by
  cases v with
  | sensitive v => cases h
  | _ => rfl

/-- Marks do not stand directly inside each other. -/
theorem convert_mark {v : Value} {want : Ty} (h : v.convert want = .ok v) :
    v.mark.convert want = .ok v.mark := by
  cases hm : v.isMarked with
  | true => rwa [mark_of_isMarked hm]
  | false =>
    have hmark := mark_of_isMarked_eq_false hm
    rw [hmark, convert, h]
    exact congrArg Except.ok hmark

/-- What a conversion gives stays as it is when no type is asked for. -/
theorem convert_dynamic_of_convert {want : Ty} {v r : Value} (h : v.convert want = .ok r) :
    r.convert .dynamic = .ok r := by
  have hr := converts_of_convert v h
  clear h
  induction hr with
  | sensitive _ ih => exact convert_mark ih
  | dynamic hv => exact convert_dynamic hv
  | primitive _ h =>
    rcases convertPrimitive_cases h with ⟨_, rfl⟩ | ⟨_, b, rfl⟩ | ⟨_, n, rfl⟩ | ⟨_, s, rfl⟩
    · contradiction
    · rfl
    · rfl
    · rfl
  | _ => rfl

theorem convert_dynamic_markIf {m : Bool} {v : Value} (h : v.convert .dynamic = .ok v) :
    (markIf m v).convert .dynamic = .ok (markIf m v) := by
  cases m with
  | true => exact convert_mark h
  | false => exact h

end StaticConfig.Value

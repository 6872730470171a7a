import StaticConfig.Proofs.Conversion.Exact

/-!
What a value with unknown parts may turn out to be: in the place of each unknown value some known
value of its type, chosen for each place on its own. Items of a set that turn out to be equal are
one item.
-/
namespace StaticConfig.Value

inductive Instance : Value → Value → Prop
  | unknown {t : Ty} {w : Value} : w.HasType t → w.isWhollyKnown = true → Instance (.unknown t) w
  | null {t : Ty} : Instance (.null t) (.null t)
  | bool {b : Bool} : Instance (.bool b) (.bool b)
  | number {n : Number} : Instance (.number n) (.number n)
  | string {s : String} : Instance (.string s) (.string s)
  | list {e : Ty} {vs ws : List Value} :
      List.Forall₂ Instance vs ws → Instance (.list e vs) (.list e ws)
  | set {e : Ty} {vs ws : List Value} :
      List.Forall₂ Instance vs ws → Instance (.set e vs) (.setOf e ws)
  | map {e : Ty} {as bs : List (String × Value)} :
      Fields.Related Instance as bs → Instance (.map e as) (.map e bs)
  | tuple {vs ws : List Value} :
      List.Forall₂ Instance vs ws → Instance (.tuple vs) (.tuple ws)
  | object {as bs : List (String × Value)} :
      Fields.Related Instance as bs → Instance (.object as) (.object bs)

namespace Instance

mutual

theorem isWhollyKnown : ∀ {v w : Value}, Instance v w → w.isWhollyKnown = true
  | _, _, .unknown _ hk => hk
  | _, _, .null | _, _, .bool | _, _, .number | _, _, .string => rfl
  | _, _, .list h => allKnown_iff.2 (isWhollyKnown_all h)
  | _, _, .set h => Hereditary.whollyKnown.setOf (isWhollyKnown_all h)
  | _, _, .map h => allFieldsKnown_iff.2 (isWhollyKnown_fields h)
  | _, _, .tuple h => allKnown_iff.2 (isWhollyKnown_all h)
  | _, _, .object h => allFieldsKnown_iff.2 (isWhollyKnown_fields h)

theorem isWhollyKnown_all : ∀ {vs ws : List Value}, List.Forall₂ Instance vs ws →
    ∀ w ∈ ws, w.isWhollyKnown = true
  | _, _, .nil => List.forall_mem_nil _
  | _, _, .cons h hs => List.forall_mem_cons.2 ⟨isWhollyKnown h, isWhollyKnown_all hs⟩

theorem isWhollyKnown_fields : ∀ {as bs : List (String × Value)}, Fields.Related Instance as bs →
    ∀ p ∈ bs, p.2.isWhollyKnown = true
  | _, _, .nil => List.forall_mem_nil _
  | _, _, .cons h hs => List.forall_mem_cons.2 ⟨isWhollyKnown h, isWhollyKnown_fields hs⟩

end

mutual

/-- What a value turns out to be has the type of the value. -/
theorem hasType : ∀ {v w : Value}, Instance v w → v.WellTyped → w.HasType v.ty
  | _, _, .unknown h _, _ => h
  | _, _, .null, h | _, _, .bool, h | _, _, .number, h | _, _, .string, h => ⟨rfl, h⟩
  | _, _, .list h, .list hty hwell => by
    have hall := hasType_all h hwell hty
    exact ⟨rfl, .list (fun w hw => (hall w hw).1) fun w hw => (hall w hw).2⟩
  | _, _, .set h, .set hty hwell => by
    have hall := hasType_all h hwell hty
    have hmem {w : Value} {ws : List Value} (hw : w ∈ distinctFrom [] ws) : w ∈ ws :=
      (mem_distinctFrom hw).resolve_left List.not_mem_nil
    exact ⟨rfl, .set (fun w hw => (hall w (hmem hw)).1) fun w hw => (hall w (hmem hw)).2⟩
  | _, _, .map h, .map hty hwell => by
    obtain ⟨-, hwell', hty'⟩ := hasType_fields h hwell
    exact ⟨rfl, .map (hty' _ hty) hwell'⟩
  | _, _, .tuple h, .tuple hwell => by
    obtain ⟨htypes, hwell'⟩ := hasType_each h hwell
    exact ⟨congrArg Ty.tuple htypes, .tuple hwell'⟩
  | _, _, .object h, .object hwell => by
    obtain ⟨htypes, hwell', -⟩ := hasType_fields h hwell
    exact ⟨congrArg Ty.plainObject htypes, .object hwell'⟩

theorem hasType_all : ∀ {vs ws : List Value} {e : Ty}, List.Forall₂ Instance vs ws →
    (∀ v ∈ vs, v.WellTyped) → (∀ v ∈ vs, v.ty = e) → ∀ w ∈ ws, w.HasType e
  | _, _, _, .nil, _, _ => List.forall_mem_nil _
  | _, _, _, .cons h hs, hwell, hty => by
    obtain ⟨hv, hvs⟩ := List.forall_mem_cons.1 hwell
    obtain ⟨hvty, hvsty⟩ := List.forall_mem_cons.1 hty
    exact List.forall_mem_cons.2 ⟨hvty ▸ hasType h hv, hasType_all hs hvs hvsty⟩

theorem hasType_each : ∀ {vs ws : List Value}, List.Forall₂ Instance vs ws →
    (∀ v ∈ vs, v.WellTyped) → types ws = types vs ∧ ∀ w ∈ ws, w.WellTyped
  | _, _, .nil, _ => ⟨rfl, List.forall_mem_nil _⟩
  | _, _, .cons h hs, hwell => by
    obtain ⟨hv, hvs⟩ := List.forall_mem_cons.1 hwell
    obtain ⟨hty, hwell'⟩ := hasType h hv
    obtain ⟨htys, hswell'⟩ := hasType_each hs hvs
    exact ⟨by rw [types, types, hty, htys], List.forall_mem_cons.2 ⟨hwell', hswell'⟩⟩

theorem hasType_fields : ∀ {as bs : List (String × Value)}, Fields.Related Instance as bs →
    (∀ p ∈ as, p.2.WellTyped) → fieldTypes bs = fieldTypes as ∧ (∀ p ∈ bs, p.2.WellTyped) ∧
      ∀ e, (∀ p ∈ as, p.2.ty = e) → ∀ p ∈ bs, p.2.ty = e
  | _, _, .nil, _ => ⟨rfl, List.forall_mem_nil _, fun _ _ => List.forall_mem_nil _⟩
  | _, _, .cons h hs, hwell => by
    obtain ⟨hv, hvs⟩ := List.forall_mem_cons.1 hwell
    obtain ⟨hty, hwell'⟩ := hasType h hv
    obtain ⟨htys, hswell', hall⟩ := hasType_fields hs hvs
    refine ⟨by rw [fieldTypes, fieldTypes, hty, htys],
      List.forall_mem_cons.2 ⟨hwell', hswell'⟩, ?_⟩
    intro e he
    obtain ⟨hve, hvse⟩ := List.forall_mem_cons.1 he
    exact List.forall_mem_cons.2 ⟨hty.trans hve, hall e hvse⟩

end

end Instance

mutual

/-- Null will do for every unknown value. -/
theorem exists_instance : ∀ {v : Value}, v.Exact → ∃ w, Instance v w ∧ w.Exact
  | .unknown t, _ => ⟨.null t, .unknown ⟨rfl, .null⟩ rfl, .null⟩
  | .null _, h => ⟨_, .null, h⟩
  | .bool _, h => ⟨_, .bool, h⟩
  | .number _, h => ⟨_, .number, h⟩
  | .string _, h => ⟨_, .string, h⟩
  | .list e _, .list h => by
    obtain ⟨ws, hws, hexact⟩ := exists_instances h
    exact ⟨.list e ws, .list hws, .list hexact⟩
  | .set e _, .set h _ => by
    obtain ⟨ws, hws, hexact⟩ := exists_instances h
    exact ⟨.setOf e ws, .set hws, exact_setOf hexact⟩
  | .map e _, .map h => by
    obtain ⟨bs, hbs, hexact⟩ := exists_instance_fields h
    exact ⟨.map e bs, .map hbs, .map hexact⟩
  | .tuple _, .tuple h => by
    obtain ⟨ws, hws, hexact⟩ := exists_instances h
    exact ⟨.tuple ws, .tuple hws, .tuple hexact⟩
  | .object _, .object h => by
    obtain ⟨bs, hbs, hexact⟩ := exists_instance_fields h
    exact ⟨.object bs, .object hbs, .object hexact⟩

theorem exists_instances : ∀ {vs : List Value}, (∀ v ∈ vs, v.Exact) →
    ∃ ws, List.Forall₂ Instance vs ws ∧ ∀ w ∈ ws, w.Exact
  | [], _ => ⟨[], .nil, List.forall_mem_nil _⟩
  | v :: vs, h => by
    obtain ⟨hv, hvs⟩ := List.forall_mem_cons.1 h
    obtain ⟨w, hw, hexact⟩ := exists_instance hv
    obtain ⟨ws, hws, hexacts⟩ := exists_instances hvs
    exact ⟨w :: ws, .cons hw hws, List.forall_mem_cons.2 ⟨hexact, hexacts⟩⟩

theorem exists_instance_fields : ∀ {as : List (String × Value)}, (∀ p ∈ as, p.2.Exact) →
    ∃ bs, Fields.Related Instance as bs ∧ ∀ p ∈ bs, p.2.Exact
  | [], _ => ⟨[], .nil, List.forall_mem_nil _⟩
  | (k, v) :: rest, h => by
    obtain ⟨hv, hvs⟩ := List.forall_mem_cons.1 h
    obtain ⟨w, hw, hexact⟩ := exists_instance hv
    obtain ⟨bs, hbs, hexacts⟩ := exists_instance_fields hvs
    exact ⟨(k, w) :: bs, .cons hw hbs, List.forall_mem_cons.2 ⟨hexact, hexacts⟩⟩

end

/-- A known value of the type that is not null. -/
def sample : Ty → Value
  | .bool => .bool true
  | .number => .ofNat 0
  | .string => .string ""
  | .list e => .list e []
  | .set e => .set e []
  | .map e => .map e []
  | .tuple elems => .tuple (elems.map .null)
  | .object attrs _ => .object (Fields.mapValues .null attrs)
  | .dynamic => .null .dynamic

theorem types_map_null (ts : List Ty) : types (ts.map .null) = ts := by
  induction ts with
  | nil => rfl
  | cons t ts ih => exact congrArg (t :: ·) ih

theorem fieldTypes_map_null (attrs : Fields Ty) :
    fieldTypes (Fields.mapValues .null attrs) = attrs := by
  rw [fieldTypes_eq, Fields.mapValues, Fields.mapValues, List.map_map]
  exact List.map_id attrs

theorem forall_mem_map_null {P : Value → Prop} (h : ∀ t, P (.null t)) (ts : List Ty) :
    ∀ v ∈ ts.map .null, P v := by
  intro v hv
  obtain ⟨t, -, rfl⟩ := List.mem_map.1 hv
  exact h t

theorem forall_mem_mapValues_null {P : Value → Prop} (h : ∀ t, P (.null t)) (attrs : Fields Ty) :
    ∀ p ∈ Fields.mapValues .null attrs, P p.2 := by
  intro p hp
  obtain ⟨q, -, rfl⟩ := List.mem_map.1 hp
  exact h q.2

theorem exact_sample (t : Ty) : (sample t).Exact := by
  cases t with
  | dynamic => exact .null
  | bool => exact .bool
  | number => exact .whole
  | string => exact .string
  | list e => exact .list (List.forall_mem_nil _)
  | set e => exact .set (List.forall_mem_nil _) List.nodup_nil
  | map e => exact .map (List.forall_mem_nil _)
  | tuple elems => exact .tuple (forall_mem_map_null (fun _ => .null) elems)
  | object attrs _ => exact .object (forall_mem_mapValues_null (fun _ => .null) attrs)

theorem instance_sample {t : Ty} (h : t.Definite) : Instance (.unknown t) (sample t) := by
  cases h with
  | bool => exact .unknown ⟨rfl, .bool⟩ rfl
  | number => exact .unknown ⟨rfl, .number⟩ rfl
  | string => exact .unknown ⟨rfl, .string⟩ rfl
  | list _ => exact .unknown ⟨rfl, .list (List.forall_mem_nil _) (List.forall_mem_nil _)⟩ rfl
  | set _ => exact .unknown ⟨rfl, .set (List.forall_mem_nil _) (List.forall_mem_nil _)⟩ rfl
  | map _ => exact .unknown ⟨rfl, .map (List.forall_mem_nil _) (List.forall_mem_nil _)⟩ rfl
  | tuple _ =>
    apply Instance.unknown
    · exact ⟨congrArg Ty.tuple (types_map_null _), .tuple (forall_mem_map_null (fun _ => .null) _)⟩
    · exact allKnown_iff.2 (forall_mem_map_null (fun _ => rfl) _)
  | object _ _ =>
    apply Instance.unknown
    · exact ⟨congrArg Ty.plainObject (fieldTypes_map_null _),
        .object (forall_mem_mapValues_null (fun _ => .null) _)⟩
    · apply allFieldsKnown_iff.2
      exact forall_mem_mapValues_null (P := fun v => v.isWhollyKnown = true) (fun _ => rfl) _

theorem sample_ne_null {t : Ty} (h : t.Definite) : sample t ≠ .null t := by
  cases h <;> exact nofun

end StaticConfig.Value

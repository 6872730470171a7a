import StaticConfig.Builtin.Library
import StaticConfig.Proofs.Builtin.Arguments
import StaticConfig.Proofs.Conversion.Hereditary

/-!
What functions do with properties of all parts of their arguments, such as being known or having
no mark. All functions but `sensitive` keep them, as far as they evaluate no expressions: their
results are made of parts of the arguments and of texts, numbers and truth values.
-/
namespace StaticConfig.Builtin

open Value StaticConfig.Except

/-- The function has results with the property for arguments with the property. -/
def Keeps (P : Value → Prop) (f : Builtin) : Prop :=
  ∀ args, (∀ a ∈ args, P a) → Ensures P (f.run args)

variable {P : Value → Prop} {ty : Ty}

theorem keeps_ofRun {least : Nat} {most : Option Nat} {run : List Value → CallResult}
    (h : ∀ args, (∀ a ∈ args, P a) → Ensures P (run args)) :
    Keeps P (ofRun least most ty run) := h

theorem keeps_variadic {least : Nat} {run : List Value → CallResult}
    (h : ∀ args, (∀ a ∈ args, P a) → Ensures P (run args)) :
    Keeps P (variadic least ty run) := h

theorem keeps_unary {run : Value → CallResult} (h : ∀ a, P a → Ensures P (run a)) :
    Keeps P (unary ty run) := by
  intro args hargs
  cases args with
  | nil => exact ensures_error
  | cons a rest => exact h a (hargs a List.mem_cons_self)

theorem keeps_binary {run : Value → Value → CallResult}
    (h : ∀ a b, P a → P b → Ensures P (run a b)) : Keeps P (binary ty run) := by
  intro args hargs
  match args with
  | [] | [_] => exact ensures_error
  | a :: b :: rest => exact h a b (hargs a (by simp)) (hargs b (by simp))

theorem keeps_ternary {run : Value → Value → Value → CallResult}
    (h : ∀ a b c, P a → P b → P c → Ensures P (run a b c)) : Keeps P (ternary ty run) := by
  intro args hargs
  match args with
  | [] | [_] | [_, _] => exact ensures_error
  | a :: b :: c :: rest => exact h a b c (hargs a (by simp)) (hargs b (by simp)) (hargs c (by simp))

theorem keeps_variadicFrom {run : Value → List Value → CallResult}
    (h : ∀ a rest, P a → (∀ b ∈ rest, P b) → Ensures P (run a rest)) :
    Keeps P (variadicFrom ty run) := by
  intro args hargs
  cases args with
  | nil => exact ensures_error
  | cons a rest =>
    exact h a rest (hargs a List.mem_cons_self) fun b hb => hargs b (List.mem_cons_of_mem a hb)

theorem keeps_withUnknown {f : Builtin} (h : Keeps P f) : Keeps P f.withUnknown := h

theorem keeps_withMarked {f : Builtin} (h : Keeps P f) : Keeps P f.withMarked := h

end StaticConfig.Builtin

namespace StaticConfig.Value.Hereditary

open StaticConfig.Builtin StaticConfig.Except

variable {P : Value → Prop}

/-! What functions take from their arguments. -/

theorem asSequence (H : Hereditary P) {v : Value} (hv : P v) :
    Ensures (fun items => ∀ x ∈ items, P x) (asSequence v) :=
  fun _ h => H.items? hv (items?_of_asSequence h)

theorem asMapping (H : Hereditary P) {v : Value} (hv : P v) :
    Ensures (fun entries => ∀ p ∈ entries, P p.2) (asMapping v) :=
  fun _ h => H.entries? hv (entries?_of_asMapping h)

theorem converted (H : Hereditary P) {v : Value} {ty : Ty} (hv : P v) :
    Ensures P (converted v ty) := by
  rw [Builtin.converted]
  split
  · rename_i r hr
    exact ensures_ok (H.convert v hv hr)
  · exact ensures_error

theorem strings (H : Hereditary P) (items : List String) : P (strings items) := by
  refine H.list.2 fun v hv => ?_
  obtain ⟨s, _, rfl⟩ := List.mem_map.1 hv
  exact H.string s

theorem convertedAll (H : Hereditary P) {ty : Ty} {vs rs : List Value} (hvs : ∀ v ∈ vs, P v)
    (h : convertedAll ty vs = some rs) : ∀ r ∈ rs, P r := by
  rw [convertedAll_eq_some_iff] at h
  induction h with
  | nil => exact nofun
  | @cons v r vs rs hr _ ih =>
    obtain ⟨hv, hvs⟩ := List.forall_mem_cons.1 hvs
    exact List.forall_mem_cons.2 ⟨H.convert v hv hr, ih hvs⟩

theorem listOrTuple (H : Hereditary P) {items : List Value} (h : ∀ v ∈ items, P v) :
    P (listOrTuple items) := by
  rw [Builtin.listOrTuple]
  split
  · exact H.tuple.2 (by simp)
  split
  · split
    · rename_i rs hrs
      exact H.list.2 (H.convertedAll h hrs)
    · exact H.tuple.2 h
  · exact H.tuple.2 h

/-!
Functions on sequences and mappings keep what holds of all parts of their arguments.
-/

open StaticConfig.Builtin StaticConfig.Builtin.Collections StaticConfig.Except

variable {P : Value → Prop} {v : Value}

theorem unknown_of_isKnown (H : Hereditary P) :
    ∀ v : Value, P v → v.isKnown = false → ∀ u, P (.unknown u)
  | .unknown _, hv, _, u => H.unknown u hv
  | .sensitive v, hv, hk, u => H.unknown_of_isKnown v (H.inner hv) hk u

theorem length (H : Hereditary P) (hv : P v) : Ensures P (length v) := by
  refine ensures_then fun _ => ?_
  split
  · rename_i hk
    exact ensures_ok (H.unknown_of_isKnown v hv (by simpa using hk) _)
  · split
    · exact ensures_ok (H.number _)
    · exact ensures_ok (H.number _)
    · exact ensures_ok (H.number _)
    · exact ensures_error

theorem joined (H : Hereditary P) {index : Nat} {args : List Value} (h : ∀ a ∈ args, P a) :
    Ensures (fun items => ∀ x ∈ items, P x) (joined index args) := by
  induction args generalizing index with
  | nil => exact ensures_ok (by simp)
  | cons a as ih =>
    simp only [Collections.joined]
    split
    · rename_i items hitems
      refine ensures_bind (ih fun b hb => h b (List.mem_cons_of_mem a hb)) fun rest hrest => ?_
      have hitems := H.asSequence (h a List.mem_cons_self) items hitems
      refine ensures_ok fun x hx => ?_
      exact (List.mem_append.1 hx).elim (hitems x) (hrest x)
    · exact ensures_error

theorem like (H : Hereditary P) {items : List Value} (h : ∀ x ∈ items, P x) :
    P (like v items) := by
  cases v with
  | list e vs => exact H.list.2 h
  | set e vs => exact H.list.2 h
  | _ => exact H.tuple.2 h

theorem mem_withoutRepeats {kept items : List Value} {x : Value}
    (h : x ∈ withoutRepeats kept items) : x ∈ kept ∨ x ∈ items := by
  induction items generalizing kept with
  | nil => exact .inl h
  | cons u us ih =>
    simp only [withoutRepeats] at h
    split at h
    · exact (ih h).imp_right (List.mem_cons_of_mem u)
    · rcases ih h with h | h
      · rcases List.mem_append.1 h with h | h
        · exact .inl h
        · exact .inr (List.mem_singleton.1 h ▸ List.mem_cons_self)
      · exact .inr (List.mem_cons_of_mem u h)

theorem values (H : Hereditary P) (hv : P v) : Ensures P (values v) := by
  refine ensures_bind (H.asMapping hv) fun entries hentries => ?_
  have hvalues : ∀ x ∈ Fields.values entries, P x := by
    intro x hx
    obtain ⟨p, hp, rfl⟩ := List.mem_map.1 hx
    exact hentries p hp
  split
  · exact ensures_ok (H.list.2 hvalues)
  · exact ensures_ok (H.tuple.2 hvalues)

theorem lookup (H : Hereditary P) {key : Value} {default : Option Value} (hv : P v)
    (hd : ∀ d, default = some d → P d) : Ensures P (lookup v key default) := by
  refine ensures_bind (H.asMapping hv) fun entries hentries => ensures_then fun name => ?_
  cases hx : entries.get? name with
  | some x => exact ensures_ok (hentries _ (Fields.mem_of_get? hx))
  | none =>
    cases default with
    | some d => exact ensures_ok (hd d rfl)
    | none => exact ensures_error

theorem mergedInto (H : Hereditary P) {acc : Fields Value} {args : List Value}
    (hacc : ∀ p ∈ acc, P p.2) (h : ∀ a ∈ args, P a) :
    Ensures (fun entries => ∀ p ∈ entries, P p.2) (mergedInto acc args) :=
  fun _ hentries => forall_mergedInto hacc (fun a ha _ hes => H.entries? (h a ha) hes) hentries

theorem mapOf? (H : Hereditary P) {entries : Fields Value} {r : Value}
    (h : ∀ p ∈ entries, P p.2) (hr : mapOf? entries = some r) : P r := by
  simp only [Collections.mapOf?, Option.bind_eq_bind, Option.bind_eq_some_iff] at hr
  obtain ⟨ty, _, vs, hvs, hr⟩ := hr
  cases hr
  have hvalues : ∀ v ∈ Fields.values entries, P v := by
    intro x hx
    obtain ⟨p, hp, rfl⟩ := List.mem_map.1 hx
    exact h p hp
  refine H.map.2 fun p hp => ?_
  exact H.convertedAll hvalues hvs p.2 (List.of_mem_zip hp).2

theorem merge (H : Hereditary P) {args : List Value} (h : ∀ a ∈ args, P a) :
    Ensures P (merge args) := by
  refine ensures_bind (H.mergedInto (by simp) h) fun entries hentries => ?_
  simp only
  split
  · cases hm : Collections.mapOf? entries with
    | none => exact ensures_ok (H.object.2 hentries)
    | some r => exact ensures_ok (H.mapOf? hentries hm)
  · exact ensures_ok (H.object.2 hentries)

theorem firstFilled (H : Hereditary P) {ty : Ty} {args : List Value} (h : ∀ a ∈ args, P a) :
    Ensures P (firstFilled ty args) := by
  induction args with
  | nil => exact ensures_error
  | cons a as ih =>
    have has := ih fun b hb => h b (List.mem_cons_of_mem a hb)
    simp only [Collections.firstFilled]
    split
    · exact has
    · refine ensures_bind (H.converted (h a List.mem_cons_self)) fun r hr => ?_
      split
      · exact has
      · exact ensures_ok hr

theorem coalesce (H : Hereditary P) {args : List Value} (h : ∀ a ∈ args, P a) :
    Ensures P (coalesce args) := by
  rw [Collections.coalesce]
  split
  · exact H.firstFilled h
  · exact ensures_error

theorem coalescelist {args : List Value} (h : ∀ a ∈ args, P a) :
    Ensures P (coalescelist args) := by
  induction args with
  | nil => exact ensures_error
  | cons a as ih =>
    have has := ih fun b hb => h b (List.mem_cons_of_mem a hb)
    simp only [Collections.coalescelist]
    split
    · exact has
    · refine ensures_then fun items => ?_
      split
      · exact has
      · exact ensures_ok (h a List.mem_cons_self)

theorem element (H : Hereditary P) {index : Value} (hv : P v) :
    Ensures P (Collections.element v index) := by
  refine ensures_bind (H.asSequence hv) fun items hitems => ensures_then fun i => ?_
  split
  · exact ensures_error
  · rename_i hne
    split
    · exact ensures_error
    · have hlt : i.toInt.toNat % items.length < items.length :=
        Nat.mod_lt _ (List.length_pos_iff.2 (by simpa using hne))
      rw [List.getElem?_eq_getElem hlt]
      exact ensures_ok (hitems _ (List.getElem_mem hlt))

mutual

theorem leaves (H : Hereditary P) :
    ∀ v : Value, P v → Ensures (fun items => ∀ x ∈ items, P x) (leaves v)
  | .list _ items, hv => H.leavesOfAll items (H.list.1 hv)
  | .set _ items, hv => H.leavesOfAll items (H.set.1 hv)
  | .tuple items, hv => H.leavesOfAll items (H.tuple.1 hv)
  | .sensitive _, _ => ensures_error
  | .null _, hv | .unknown _, hv | .bool _, hv | .number _, hv | .string _, hv | .map _ _, hv
  | .object _, hv => ensures_ok (by simpa using hv)

theorem leavesOfAll (H : Hereditary P) : ∀ items : List Value, (∀ x ∈ items, P x) →
    Ensures (fun items => ∀ x ∈ items, P x) (leavesOfAll items)
  | [], _ => ensures_ok (by simp)
  | v :: vs, h => by
    refine ensures_bind (H.leaves v (h v List.mem_cons_self)) fun first hfirst => ?_
    have hvs : ∀ x ∈ vs, P x := fun x hx => h x (List.mem_cons_of_mem v hx)
    refine ensures_bind (H.leavesOfAll vs hvs) fun rest hrest => ?_
    refine ensures_ok fun x hx => ?_
    exact (List.mem_append.1 hx).elim (hfirst x) (hrest x)

end

theorem rangeFrom (H : Hereditary P) {limit step : Float} {fuel : Nat} {n : Float} :
    Ensures (fun items => ∀ x ∈ items, P x) (rangeFrom limit step fuel n) := by
  induction fuel generalizing n with
  | zero =>
    simp only [Collections.rangeFrom]
    split
    · exact ensures_error
    · exact ensures_ok (by simp)
  | succ fuel ih =>
    simp only [Collections.rangeFrom]
    split
    · refine ensures_bind ih fun rest hrest => ensures_ok fun x hx => ?_
      rcases List.mem_cons.1 hx with rfl | hx
      · exact H.number _
      · exact hrest x hx
    · exact ensures_ok (by simp)

theorem rangeBetween (H : Hereditary P) {start limit step : Float} :
    Ensures P (rangeBetween start limit step) := by
  simp only [Collections.rangeBetween]
  split
  · exact ensures_error
  split
  · exact ensures_error
  · exact ensures_map fun items hitems => H.list.2 (H.rangeFrom items hitems)

theorem zipped {entries : Fields Value} {ks vs : List Value}
    (hentries : ∀ p ∈ entries, P p.2) (hvs : ∀ x ∈ vs, P x) :
    Ensures (fun entries => ∀ p ∈ entries, P p.2) (zipped entries ks vs) := by
  induction ks generalizing entries vs with
  | nil => exact ensures_ok hentries
  | cons k ks ih =>
    cases vs with
    | nil => exact ensures_ok hentries
    | cons v vs =>
      refine ensures_then fun key => ih (fun p hp => ?_) fun x hx =>
        hvs x (List.mem_cons_of_mem v hx)
      rcases Fields.mem_insert hp with rfl | hp
      · exact hvs v List.mem_cons_self
      · exact hentries p hp

theorem zipmap (H : Hereditary P) {keys : Value} (hv : P v) : Ensures P (zipmap keys v) := by
  refine ensures_then fun ks => ensures_bind (H.asSequence hv) fun vs hvs => ?_
  split
  · exact ensures_error
  · refine ensures_bind (zipped (by simp) hvs) fun entries hentries => ?_
    split
    · exact ensures_ok (H.map.2 hentries)
    · exact ensures_ok (H.map.2 hentries)
    · exact ensures_ok (H.object.2 hentries)

theorem slice (H : Hereditary P) {start stop : Value} (hv : P v) :
    Ensures P (slice v start stop) := by
  refine ensures_bind (H.asSequence hv) fun items hitems => ensures_then fun i =>
    ensures_then fun j => ?_
  split
  · exact ensures_error
  split
  · exact ensures_error
  split
  · exact ensures_error
  · refine ensures_ok (H.like fun x hx => ?_)
    exact hitems x (List.mem_of_mem_take (List.mem_of_mem_drop hx))

theorem keeps_collections (H : Hereditary P) : ∀ p ∈ Collections.functions, Keeps P p.2 := by
  simp only [Collections.functions, List.forall_mem_cons]
  refine ⟨?coalesce, ?coalescelist, ?compact, ?concat, ?contains, ?distinct, ?element, ?flatten,
    ?index, ?keys, ?length, ?lookup, ?merge, ?range, ?reverse, ?slice, ?sort, ?values, ?zipmap,
    List.forall_mem_nil _⟩
  case coalesce => exact keeps_variadic fun _ => H.coalesce
  case coalescelist => exact keeps_variadic fun _ => coalescelist
  case compact =>
    exact keeps_unary fun _ _ => ensures_then fun _ => ensures_then fun _ =>
      ensures_ok (H.strings _)
  case concat =>
    exact keeps_variadic fun _ h => ensures_bind (H.joined h) fun _ h =>
      ensures_ok (H.listOrTuple h)
  case contains => exact keeps_binary fun _ _ _ _ => ensures_then fun _ => ensures_ok (H.bool _)
  case distinct =>
    refine keeps_unary fun a ha => ensures_bind (H.asSequence ha) fun items hitems => ?_
    refine ensures_ok (H.like fun x hx => ?_)
    rcases mem_withoutRepeats hx with hx | hx
    · cases hx
    · exact hitems x hx
  case element => exact keeps_binary fun _ _ ha _ => H.element ha
  case flatten =>
    refine keeps_unary fun a ha => ensures_bind (H.asSequence ha) fun items hitems => ?_
    exact ensures_bind (H.leavesOfAll items hitems) fun _ h => ensures_ok (H.listOrTuple h)
  case index =>
    refine keeps_binary fun _ _ _ _ => ensures_then fun _ => ?_
    split
    · exact ensures_ok (H.number _)
    · exact ensures_error
  case keys => exact keeps_unary fun _ _ => ensures_then fun _ => ensures_ok (H.strings _)
  case length => exact keeps_withUnknown (keeps_unary fun _ => H.length)
  case lookup =>
    refine keeps_ofRun fun args hargs => ?_
    match args with
    | [] | [_] => exact ensures_error
    | v :: key :: rest =>
      refine H.lookup (hargs v (by simp)) fun d hd => hargs d ?_
      exact List.mem_cons_of_mem _ (List.mem_cons_of_mem _ (List.mem_of_head? hd))
  case merge => exact keeps_variadic fun _ => H.merge
  case range =>
    refine keeps_ofRun fun args _ => ensures_then fun ns => ?_
    split
    · exact H.rangeBetween
    · exact H.rangeBetween
    · exact H.rangeBetween
    · exact ensures_error
  case reverse =>
    refine keeps_unary fun a ha => ensures_bind (H.asSequence ha) fun items hitems => ?_
    exact ensures_ok (H.like fun x hx => hitems x (List.mem_reverse.1 hx))
  case slice => exact keeps_ternary fun _ _ _ ha _ _ => H.slice ha
  case sort =>
    exact keeps_unary fun _ _ => ensures_then fun _ => ensures_then fun _ =>
      ensures_ok (H.strings _)
  case values => exact keeps_unary fun _ => H.values
  case zipmap => exact keeps_binary fun _ _ _ hb => H.zipmap hb

end StaticConfig.Value.Hereditary

import Mathlib.Data.Finset.Card
import StaticConfig.Builtin.Library
import StaticConfig.Proofs.Builtin.Call
import StaticConfig.Proofs.Evaluation.Compositional
import StaticConfig.Proofs.Knowledge.Instances
import StaticConfig.Scope.Expansion

/-!
The sizes of sets with unknown items. Such a set claims a size: the number of its items, where
unknown values of one type count as equal to each other and to nothing else. The claim is good for
what the items turn out to be if and only if it never changes which of them are equal.
-/
namespace StaticConfig

namespace Value

/-- The number of items of a set of the values. -/
def setSize (items : List Value) : Nat := (distinctFrom [] items).length

theorem setSize_eq_card [DecidableEq Value] {items : List Value} (h : ∀ v ∈ items, v.Exact) :
    setSize items = items.toFinset.card := by
  have hnodup : (distinctFrom [] items).Nodup :=
    nodup_distinctFrom h
  have hmem : (distinctFrom [] items).toFinset = items.toFinset := by
    ext v
    rw [List.mem_toFinset, List.mem_toFinset, mem_distinctFrom_iff (List.forall_mem_nil _) h]
    simp
  rw [setSize, ← List.toFinset_card_of_nodup hnodup, hmem]

/-- If the same of them are equal, as many are kept of the values on both sides. -/
theorem length_distinctFrom_congr {kept pairs : List (Value × Value)}
    (hkept : ∀ k ∈ kept, ∀ p ∈ pairs, same k.1 p.1 = same k.2 p.2)
    (hpairs : pairs.Pairwise fun p q => same p.1 q.1 = same p.2 q.2) :
    (distinctFrom (kept.map Prod.fst) (pairs.map Prod.fst)).length =
      (distinctFrom (kept.map Prod.snd) (pairs.map Prod.snd)).length := by
  induction pairs generalizing kept with
  | nil => simp only [List.map_nil, distinctFrom, List.length_map]
  | cons p pairs ih =>
    obtain ⟨hp, hpairs⟩ := List.pairwise_cons.1 hpairs
    have hrest : ∀ k ∈ kept, ∀ q ∈ pairs, same k.1 q.1 = same k.2 q.2 :=
      fun k hk q hq => hkept k hk q (List.mem_cons_of_mem p hq)
    have hany : ((kept.map Prod.fst).any fun k => same k p.1) =
        (kept.map Prod.snd).any fun k => same k p.2 := by
      have hsame : kept.map (fun k => same k.1 p.1) = kept.map fun k => same k.2 p.2 :=
        List.map_congr_left fun k hk => hkept k hk p List.mem_cons_self
      have hids := congrArg (List.any · id) hsame
      simpa only [List.any_map, Function.comp_def, id_eq] using hids
    rw [List.map_cons, List.map_cons, distinctFrom, distinctFrom, hany]
    split
    · exact ih hrest hpairs
    · have hboth : ∀ k ∈ kept ++ [p], ∀ q ∈ pairs, same k.1 q.1 = same k.2 q.2 :=
        List.forall_mem_append.2 ⟨hrest, List.forall_mem_singleton.2 hp⟩
      have hconcat := ih hboth hpairs
      simpa only [List.map_append, List.map_singleton] using hconcat

/-- However the unknown parts turn out, a set of the values has the same size. -/
def Settled (items : List Value) : Prop :=
  ∀ items', List.Forall₂ Instance items items' → (∀ v ∈ items', v.Exact) →
    setSize items' = setSize items

/-- However their unknown parts turn out, the values are equal if and only if they were before. -/
def Decided (v w : Value) : Prop :=
  ∀ v' w', Instance v v' → Instance w w' → v'.Exact → w'.Exact → (v' = w' ↔ v = w)

theorem Decided.symm {v w : Value} (h : Decided v w) : Decided w v := by
  intro w' v' hw hv hw' hv'
  rw [eq_comm, h v' w' hv hw hv' hw', eq_comm]

theorem settled_of_pairwise {items : List Value} (hexact : ∀ v ∈ items, v.Exact)
    (h : items.Pairwise Decided) : Settled items := by
  intro items' hinstance hexact'
  obtain ⟨hlength, hget⟩ := List.forall₂_iff_get.1 hinstance
  have hpairs : (items.zip items').Pairwise fun p q => same p.1 q.1 = same p.2 q.2 := by
    rw [List.pairwise_iff_getElem] at h ⊢
    intro i j hi hj hij
    rw [List.length_zip] at hi hj
    have hi₁ : i < items.length := by omega
    have hj₁ : j < items.length := by omega
    have hi₂ : i < items'.length := by omega
    have hj₂ : j < items'.length := by omega
    have hi' := hexact' _ (List.getElem_mem hi₂)
    have hj' := hexact' _ (List.getElem_mem hj₂)
    have hiff : items'[i] = items'[j] ↔ items[i] = items[j] :=
      h i j hi₁ hj₁ hij _ _ (hget i hi₁ hi₂) (hget j hj₁ hj₂) hi' hj'
    rw [← same_iff hi' hj', ← same_iff (hexact _ (List.getElem_mem hi₁))
      (hexact _ (List.getElem_mem hj₁)), ← Bool.eq_iff_iff] at hiff
    simp only [List.getElem_zip]
    exact hiff.symm
  have hcount := length_distinctFrom_congr (List.forall_mem_nil _) hpairs
  simp only [List.map_nil] at hcount
  rw [List.map_fst_zip hlength.le, List.map_snd_zip hlength.ge] at hcount
  exact hcount.symm

/-- The function takes each of the values to one of those that it may turn out to be. -/
def Filling (items : List Value) (g : Value → Value) : Prop :=
  ∀ v ∈ items, Instance v (g v) ∧ (g v).Exact

theorem exists_filling {items : List Value} (hexact : ∀ v ∈ items, v.Exact) :
    ∃ g, Filling items g := by
  have hall (v : Value) : v.Exact → ∃ w, Instance v w ∧ w.Exact := exists_instance
  choose! g hg using hall
  exact ⟨g, fun v hv => hg v (hexact v hv)⟩

section

variable {items : List Value} {g : Value → Value} {c u : Value}

/-- One of the items may turn out to be something else than the function says. -/
theorem Filling.instance_set (hg : Filling items g) {j : Nat} (hj : j < items.length)
    (hu : Instance items[j] u) : List.Forall₂ Instance items ((items.map g).set j u) := by
  refine List.forall₂_iff_get.2 ⟨by simp, fun k hk hk' => ?_⟩
  simp only [List.get_eq_getElem, List.getElem_set, List.getElem_map]
  split
  · rename_i heq
    subst heq
    exact hu
  · exact (hg _ (List.getElem_mem hk)).1

theorem Filling.exact_set (hg : Filling items g) (hu : u.Exact) (j : Nat) :
    ∀ v ∈ (items.map g).set j u, v.Exact := by
  intro v hv
  rcases List.mem_or_eq_of_mem_set hv with hv | rfl
  · exact List.forall_mem_map.2 (fun w hw => (hg w hw).2) v hv
  · exact hu

variable [DecidableEq Value]

theorem Filling.update (hg : Filling items g) (hc : Instance c u) (hu : u.Exact) :
    Filling items (Function.update g c u) := by
  intro v hv
  by_cases h : v = c
  · rw [h, Function.update_self]
    exact ⟨hc, hu⟩
  · rw [Function.update_of_ne h]
    exact hg v hv

theorem Filling.toFinset_map : (items.map g).toFinset = items.toFinset.image g := by
  ext v
  simp

/-- If the size is settled, then values that differ turn out to be different. -/
theorem Settled.injOn (h : Settled items) (hexact : ∀ v ∈ items, v.Exact)
    (hg : Filling items g) : Set.InjOn g items.toFinset := by
  have hinstance : List.Forall₂ Instance items (items.map g) :=
    List.forall₂_map_right_iff.2 (List.forall₂_same.2 fun v hv => (hg v hv).1)
  have hexact' : ∀ v ∈ items.map g, v.Exact := List.forall_mem_map.2 fun v hv => (hg v hv).2
  have hsize := h _ hinstance hexact'
  rw [setSize_eq_card hexact', setSize_eq_card hexact, Filling.toFinset_map] at hsize
  exact Finset.card_image_iff.1 hsize

/-- Of an item that is there twice the second may be given up: the first keeps its value. -/
theorem toFinset_set_of_twice {i j : Nat} (hi : i < items.length) (hj : j < items.length)
    (hij : i ≠ j) (htwice : items[i] = items[j]) :
    ((items.map g).set j u).toFinset = Insert.insert u (items.toFinset.image g) := by
  have hkept (k : Nat) (hk : k < items.length) (hkj : k ≠ j) :
      g items[k] ∈ (items.map g).set j u := by
    have hk' : k < ((items.map g).set j u).length := by simpa using hk
    have hget : ((items.map g).set j u)[k] = g items[k] := by
      simp only [List.getElem_set_ne (Ne.symm hkj), List.getElem_map]
    exact hget ▸ List.getElem_mem hk'
  ext v
  simp only [List.mem_toFinset, Finset.mem_insert, Finset.mem_image]
  constructor
  · intro hv
    rcases List.mem_or_eq_of_mem_set hv with hv | hv
    · exact .inr (List.mem_map.1 hv)
    · exact .inl hv
  · intro hv
    rcases hv with rfl | ⟨d, hd, rfl⟩
    · have hj' : j < (items.map g).length := by rwa [List.length_map]
      exact List.mem_set hj' v
    · obtain ⟨k, hk, rfl⟩ := List.getElem_of_mem hd
      by_cases hkj : k = j
      · subst hkj
        rw [← htwice]
        exact hkept i hi hij
      · exact hkept k hk hkj

/-- If the size is settled, then an item that is there twice turns out to be the same both times:
else its second value would be that of some other item, and both could have this value. -/
theorem Settled.eq_of_twice (h : Settled items) (hexact : ∀ v ∈ items, v.Exact) {i j : Nat}
    (hi : i < items.length) (hj : j < items.length) (hij : i ≠ j) (htwice : items[i] = items[j])
    {v' w' : Value} (hv : Instance items[i] v') (hw : Instance items[j] w') (hv' : v'.Exact)
    (hw' : w'.Exact) : v' = w' := by
  by_contra hne
  obtain ⟨fill, hfill⟩ := exists_filling hexact
  let g := Function.update fill items[i] v'
  have hg : Filling items g := hfill.update hv hv'
  have hgi : g items[i] = v' := Function.update_self ..
  have hsize := h _ (hg.instance_set hj hw) (hg.exact_set hw' j)
  rw [setSize_eq_card (hg.exact_set hw' j), setSize_eq_card hexact,
    toFinset_set_of_twice hi hj hij htwice] at hsize
  have hcard : (items.toFinset.image g).card = items.toFinset.card :=
    Finset.card_image_iff.2 (h.injOn hexact hg)
  obtain ⟨d, hd, hgd⟩ : ∃ d ∈ items.toFinset, g d = w' := by
    by_contra hnot
    have hmem : w' ∉ items.toFinset.image g := fun hmem => hnot (Finset.mem_image.1 hmem)
    rw [Finset.card_insert_of_notMem hmem] at hsize
    omega
  have hdi : d ≠ items[i] := by
    intro heq
    exact hne (hgi ▸ heq ▸ hgd)
  have hg' : Filling items (Function.update g items[i] w') := hg.update (htwice ▸ hw) hw'
  apply hdi
  apply h.injOn hexact hg' hd (List.mem_toFinset.2 (List.getElem_mem hi))
  rw [Function.update_of_ne hdi, Function.update_self, hgd]

end

theorem pairwise_of_settled {items : List Value} (hexact : ∀ v ∈ items, v.Exact)
    (h : Settled items) : items.Pairwise Decided := by
  classical
  rw [List.pairwise_iff_getElem]
  intro i j hi hj hij v' w' hv hw hv' hw'
  constructor
  · intro heq
    by_contra hne
    obtain ⟨fill, hfill⟩ := exists_filling hexact
    have hg := (hfill.update hw hw').update hv hv'
    apply hne
    apply h.injOn hexact hg (List.mem_toFinset.2 (List.getElem_mem hi))
      (List.mem_toFinset.2 (List.getElem_mem hj))
    rw [Function.update_self, Function.update_of_ne (Ne.symm hne), Function.update_self, heq]
  · intro heq
    exact h.eq_of_twice hexact hi hj (Nat.ne_of_lt hij) heq hv hw hv' hw'

/-- The size of a set with an unknown item is settled only if this is its one item. -/
theorem settled_iff_of_unknown {t : Ty} (ht : t.Definite) {items : List Value}
    (hexact : ∀ v ∈ items, v.Exact) (htype : ∀ v ∈ items, v.HasType t)
    (hmem : .unknown t ∈ items) : Settled items ↔ items.length = 1 := by
  constructor
  · intro h
    have hpairwise := List.pairwise_iff_getElem.1 (pairwise_of_settled hexact h)
    obtain ⟨i, hi, hunknown⟩ := List.getElem_of_mem hmem
    by_contra hlength
    obtain ⟨j, hj, hij⟩ : ∃ j, j < items.length ∧ i ≠ j := by
      by_cases h0 : i = 0
      · exact ⟨1, by omega, by omega⟩
      · exact ⟨0, by omega, h0⟩
    have hdecided : Decided (.unknown t) items[j] := by
      rw [← hunknown]
      rcases Nat.lt_or_gt_of_ne hij with hlt | hgt
      · exact hpairwise i j hi hj hlt
      · exact (hpairwise j i hj hi hgt).symm
    by_cases hj' : items[j] = .unknown t
    · rw [hj'] at hdecided
      have hiff := hdecided _ _ (instance_sample ht) (.unknown ⟨rfl, .null⟩ rfl) (exact_sample t)
        .null
      exact sample_ne_null ht (hiff.2 rfl)
    · have hexactj := hexact _ (List.getElem_mem hj)
      have htypej := htype _ (List.getElem_mem hj)
      obtain ⟨w, hw, hexactw⟩ := exists_instance hexactj
      have hwt : w.HasType t := htypej.1 ▸ hw.hasType htypej.2
      have hiff := hdecided w w (.unknown hwt hw.isWhollyKnown) hw hexactw hexactw
      exact hj' (hiff.1 rfl).symm
  · intro hlength
    obtain ⟨v, rfl⟩ := List.length_eq_one_iff.1 hlength
    exact settled_of_pairwise hexact (List.pairwise_singleton _ _)

/-- The value is a list or a tuple of the items. -/
def IsSequenceOf (v : Value) (items : List Value) : Prop :=
  v = .tuple items ∨ ∃ t, v = .list t items

theorem IsSequenceOf.exact {v : Value} {items : List Value} (hv : v.IsSequenceOf items)
    (hexact : ∀ v ∈ items, v.Exact) : v.Exact := by
  rcases hv with rfl | ⟨u, rfl⟩
  · exact .tuple hexact
  · exact .list hexact

theorem unify_of_forall {t : Ty} (ht : t ≠ .dynamic) {ts : List Ty} (h : ∀ u ∈ ts, u = t)
    (hne : ts ≠ []) : Ty.unify ts = some t := by
  cases ts with
  | nil => exact absurd rfl hne
  | cons first rest =>
    obtain ⟨rfl, hrest⟩ := List.forall_mem_cons.1 h
    have hdynamic : (first :: rest).contains Ty.dynamic = false := by
      rw [← Bool.not_eq_true, List.contains_iff_mem]
      intro hmem
      exact ht (h _ hmem).symm
    have hall : ((first :: rest).all fun u => u == first) = true :=
      List.all_eq_true.2 fun u hu => beq_iff_eq.2 (h u hu)
    rw [Ty.unify]
    simp only [hdynamic, hall, if_true]
    rfl

theorem convert_toset {t : Ty} (ht : t.Definite) {items : List Value}
    (hexact : ∀ v ∈ items, v.Exact) (htype : ∀ v ∈ items, v.HasType t) {v : Value}
    (hv : v.IsSequenceOf items) : ∃ e, v.convert (.set .dynamic) = .ok (setOf e items) := by
  have hsequence (u : Value) : ∃ e, sequenceTo u items true (fun e => convertItems 0 items e)
      (fun es => convertEach 0 items es) (.set .dynamic) = .ok (setOf e items) := by
    by_cases hne : items = []
    · subst hne
      refine ⟨.dynamic, ?_⟩
      simp only [sequenceTo, elementTarget, Ty.hasDynamic, if_true, types, Ty.unify]
      rfl
    · have htypes : ∀ u ∈ types items, u = t := by
        intro u hu
        rw [types_eq_map] at hu
        obtain ⟨w, hw, rfl⟩ := List.mem_map.1 hu
        exact (htype w hw).1
      have hunify : Ty.unify (types items) = some t := by
        apply unify_of_forall _ htypes
        · rw [types_eq_map]
          exact fun hnil => hne (List.map_eq_nil_iff.1 hnil)
        · intro heq
          rw [heq] at ht
          cases ht
      refine ⟨t, ?_⟩
      have hitems : convertItems 0 items t = .ok items :=
        convertItems_self (fun v hv => bare_of_exact (hexact v hv)) (fun v hv => (htype v hv).1)
          (fun v hv => (htype v hv).2) ht
      simp only [sequenceTo, elementTarget, Ty.hasDynamic, if_true, hunify, bind, Except.bind,
        hitems]
      rfl
  rcases hv with rfl | ⟨u, rfl⟩
  · exact hsequence _
  · exact hsequence _

end Value

namespace Eval

open Value

/-- The set of the items of `x`. -/
def setOfList (span : Span) : Expr :=
  .call span "toset" [.traversal span "x" []] false

def lengthOfSet (span : Span) : Expr :=
  .call span "length" [setOfList span] false

/-- The items of the set, one by one. -/
def eachOfSet (span : Span) : Expr :=
  .forEach span none "v" (setOfList span) none (.traversal span "v" []) none false

/-- The set of the items of the value claims to have `n` items: this is its length, and iteration
over it goes as many rounds. -/
structure Counts (s : Setting) (span : Span) (v : Value) (n : Nat) : Prop where
  length : eval s [("x", v)] (lengthOfSet span) = ⟨.ofNat n, []⟩
  rounds : ∃ rs, eval s [("x", v)] (eachOfSet span) = ⟨.tuple rs, []⟩ ∧ rs.length = n
  blocks : ∃ c es, eval s [("x", v)] (setOfList span) = ⟨c, []⟩ ∧
    DynamicBlock.elements c.bare span = .ok es ∧ es.length = n

theorem Counts.unique {s : Setting} {span : Span} {v : Value} {n m : Nat}
    (hn : Counts s span v n) (hm : Counts s span v m) : n = m := by
  obtain ⟨rs, hrs, rfl⟩ := hn.rounds
  obtain ⟨rs', hrs', rfl⟩ := hm.rounds
  rw [hrs] at hrs'
  cases hrs'
  rfl

/-- A for expression that keeps the items of its collection keeps all of them. -/
theorem gives_gather_items (s : Setting) (env : Env) (span : Span) (unique marked : Bool)
    (es : List (Value × Value)) (kept : List (Option String × Value)) :
    Gives (gather unique span (forEntry s env none "v" none (.traversal span "v" []) none) kept
      marked es) (some (kept ++ es.map fun e => (none, e.2)), marked) := by
  induction es generalizing kept with
  | nil =>
    rw [List.map_nil, List.append_nil]
    exact gives_pure.2 rfl
  | cons e es ih =>
    rw [gather]
    apply gives_bind.2
    refine ⟨(.keep none e.2, false), rfl, ?_⟩
    have hrest := ih (kept ++ [(none, e.2)])
    rw [List.append_assoc] at hrest
    simp only [Bool.or_false]
    exact hrest

variable {ambient : Library.Ambient} {pureOnly : Bool} {span : Span} {t : Ty}
  {items : List Value} {v : Value}

/-- A function that takes unknown values, called with one exact argument. -/
theorem call_of_exact {f : Builtin} (hone : f.least = 1 ∧ f.most = some 1)
    (hpure : f.impure = false) (hunknown : f.takesUnknown = true) (hv : v.Exact) {r : Value}
    (h : f.run [v] = .ok r) : f.call pureOnly [v] = .ok r := by
  have hcount : f.checkCount 1 = .ok () := by
    rw [Builtin.checkCount, hone.1, hone.2]
    rfl
  have hbare : bareAll [v] = [v] := bareAll_of_exact (List.forall_mem_singleton.2 hv)
  have hmark : anyMark [v] = false := by
    rw [anyMark, hasMark_of_exact hv]
    rfl
  rw [Builtin.call_eq_run hcount hpure (.inl hunknown) hbare hmark, h]

theorem callNamed_toset (ht : t.Definite) (hexact : ∀ v ∈ items, v.Exact)
    (htype : ∀ v ∈ items, v.HasType t) (hv : v.IsSequenceOf items) :
    ∃ e, callNamed ⟨Library.standard ambient, pureOnly⟩ "toset" [v] span =
      .ok (setOf e items) := by
  obtain ⟨e, he⟩ := convert_toset ht hexact htype hv
  have hrun : (Builtin.Conversions.into (.set .dynamic)).run [v] = .ok (setOf e items) := by
    change Builtin.converted v (.set .dynamic) = _
    rw [Builtin.converted, he]
  have hcall : (Builtin.Conversions.into (.set .dynamic)).call pureOnly [v] =
      .ok (setOf e items) := call_of_exact ⟨rfl, rfl⟩ rfl rfl (hv.exact hexact) hrun
  exact ⟨e, callNamed_of_call rfl hcall⟩

theorem callNamed_length (e : Ty) (hexact : ∀ v ∈ items, v.Exact) :
    callNamed ⟨Library.standard ambient, pureOnly⟩ "length" [setOf e items] span =
      .ok (.ofNat (setSize items)) := by
  have hset : (setOf e items).Exact := exact_setOf hexact
  have hcall : (Builtin.unary .number Builtin.Collections.length).withUnknown.call pureOnly
      [setOf e items] = .ok (.ofNat (setSize items)) :=
    call_of_exact ⟨rfl, rfl⟩ rfl rfl hset rfl
  exact callNamed_of_call rfl hcall

theorem counts_setSize (ht : t.Definite) (hexact : ∀ v ∈ items, v.Exact)
    (htype : ∀ v ∈ items, v.HasType t) (hv : v.IsSequenceOf items) :
    Counts ⟨Library.standard ambient, pureOnly⟩ span v (setSize items) := by
  obtain ⟨e, hcall⟩ : ∃ e, callNamed ⟨Library.standard ambient, pureOnly⟩ "toset" [v] span =
      .ok (setOf e items) := callNamed_toset ht hexact htype hv
  have hset : eval ⟨Library.standard ambient, pureOnly⟩ [("x", v)] (setOfList span) =
      ⟨setOf e items, []⟩ := by
    apply eval_call_eq_clean.2
    refine ⟨[v], ?_, hcall⟩
    apply evalAll_cons_eq_clean.2
    exact ⟨v, [], eval_traversal_eq_clean.2 ⟨v, rfl, rfl⟩, rfl, rfl⟩
  constructor
  · apply eval_call_eq_clean.2
    refine ⟨[setOf e items], ?_, callNamed_length e hexact⟩
    exact evalAll_cons_eq_clean.2 ⟨_, [], hset, rfl, rfl⟩
  · refine ⟨distinctFrom [] items, ?_, rfl⟩
    unfold eachOfSet
    rw [eval_forEach, settle_eq_clean, gives_bind]
    refine ⟨setOf e items, gives_report.2 hset, ?_⟩
    apply gives_bind.2
    refine ⟨_, gives_gather_items _ _ _ _ _ _ _, ?_⟩
    apply gives_pure.2
    have hitems : ((distinctFrom [] items).map fun v => ((none : Option String), v)).map Prod.snd =
        distinctFrom [] items := by
      rw [List.map_map]
      exact List.map_id _
    rw [List.nil_append, List.map_map]
    exact congrArg Value.tuple hitems
  · have hbare : (setOf e items).bare = setOf e items := bare_of_exact (exact_setOf hexact)
    refine ⟨setOf e items, _, hset, by rw [hbare]; rfl, ?_⟩
    rw [List.length_map]
    rfl

/-- However the unknown parts of the items turn out, a set of the items claims the same size as
before. -/
def SizesAgree (s : Setting) (span : Span) (items : List Value) : Prop :=
  ∀ items', List.Forall₂ Instance items items' → (∀ v ∈ items', v.Exact) →
    ∀ v v', v.IsSequenceOf items → v'.IsSequenceOf items' →
      ∀ n, Counts s span v n → Counts s span v' n

theorem sizesAgree_iff_settled (ht : t.Definite) (hexact : ∀ v ∈ items, v.Exact)
    (htype : ∀ v ∈ items, v.HasType t) :
    SizesAgree ⟨Library.standard ambient, pureOnly⟩ span items ↔ Settled items := by
  have htype' (items' : List Value) (h : List.Forall₂ Instance items items') :
      ∀ v ∈ items', v.HasType t :=
    Instance.hasType_all h (fun v hv => (htype v hv).2) fun v hv => (htype v hv).1
  constructor
  · intro h items' hinstance hexact'
    have hcounts := h items' hinstance hexact' _ _ (.inl rfl) (.inl rfl) _
      (counts_setSize ht hexact htype (.inl rfl))
    exact (counts_setSize ht hexact' (htype' items' hinstance) (.inl rfl)).unique hcounts
  · intro h items' hinstance hexact' v v' hv hv' n hn
    have hn' := (counts_setSize ht hexact htype hv).unique hn
    rw [← hn', ← h items' hinstance hexact']
    exact counts_setSize ht hexact' (htype' items' hinstance) hv'

/-- A set of items of one type always claims a size. It is the size of the set whatever the unknown
parts of the items turn out to be if and only if this never changes which items are equal. If one of
the items is unknown itself, then only a set of this item alone has a sure size. -/
theorem sizesAgree_iff (ambient : Library.Ambient) (pureOnly : Bool) (span : Span) {t : Ty}
    (ht : t.Definite) {items : List Value} (hitems : ∀ v ∈ items, v.Exact ∧ v.HasType t) :
    (∀ v, v.IsSequenceOf items →
      Counts ⟨Library.standard ambient, pureOnly⟩ span v (setSize items)) ∧
    (SizesAgree ⟨Library.standard ambient, pureOnly⟩ span items ↔ items.Pairwise Decided) ∧
    (.unknown t ∈ items →
      (SizesAgree ⟨Library.standard ambient, pureOnly⟩ span items ↔ items.length = 1)) := by
  have hexact : ∀ v ∈ items, v.Exact := fun v hv => (hitems v hv).1
  have htype : ∀ v ∈ items, v.HasType t := fun v hv => (hitems v hv).2
  refine ⟨fun v hv => counts_setSize ht hexact htype hv, ?_, ?_⟩
  · rw [sizesAgree_iff_settled ht hexact htype]
    exact ⟨pairwise_of_settled hexact, settled_of_pairwise hexact⟩
  · intro hmem
    rw [sizesAgree_iff_settled ht hexact htype]
    exact settled_iff_of_unknown ht hexact htype hmem

/-- An unknown text and a known one: the set claims two items, and may turn out to have one. -/
theorem sizesAgree_iff_texts :
    Counts ⟨Library.standard ⟨"", fun _ => ""⟩, false⟩ default
        (.tuple [.unknown .string, .string "a"]) 2 ∧
      ¬ SizesAgree ⟨Library.standard ⟨"", fun _ => ""⟩, false⟩ default
        [.unknown .string, .string "a"] := by
  have hitems : ∀ v ∈ [Value.unknown .string, .string "a"], v.Exact ∧ v.HasType .string :=
    List.forall_mem_cons.2 ⟨⟨.unknown, rfl, .unknown⟩,
      List.forall_mem_singleton.2 ⟨.string, rfl, .string⟩⟩
  obtain ⟨hcounts, -, hunknown⟩ := sizesAgree_iff ⟨"", fun _ => ""⟩ false default .string hitems
  refine ⟨hcounts _ (.inl rfl), fun h => ?_⟩
  have hlength := (hunknown List.mem_cons_self).1 h
  cases hlength

/-- Two unknown texts are one item of a set, and two of it when they turn out to differ. -/
theorem counts_of_unknown_texts :
    Counts ⟨Library.standard ⟨"", fun _ => ""⟩, false⟩ default
        (.tuple [.unknown .string, .unknown .string]) 1 ∧
      List.Forall₂ Instance [.unknown .string, .unknown .string] [.string "x", .string "y"] ∧
      Counts ⟨Library.standard ⟨"", fun _ => ""⟩, false⟩ default
        (.tuple [.string "x", .string "y"]) 2 := by
  have hx : (Value.string "x").Exact ∧ (Value.string "x").HasType .string :=
    ⟨.string, rfl, .string⟩
  have hy : (Value.string "y").Exact ∧ (Value.string "y").HasType .string :=
    ⟨.string, rfl, .string⟩
  have hunknown : ∀ v ∈ [Value.unknown .string, .unknown .string],
      v.Exact ∧ v.HasType .string := by
    intro v hv
    rcases List.mem_cons.1 hv with rfl | hv
    · exact ⟨.unknown, rfl, .unknown⟩
    · obtain rfl := List.mem_singleton.1 hv
      exact ⟨.unknown, rfl, .unknown⟩
  have hknown : ∀ v ∈ [Value.string "x", .string "y"], v.Exact ∧ v.HasType .string :=
    List.forall_mem_cons.2 ⟨hx, List.forall_mem_singleton.2 hy⟩
  refine ⟨?_, .cons (.unknown hx.2 rfl) (.cons (.unknown hy.2 rfl) .nil), ?_⟩
  · exact counts_setSize .string (fun v hv => (hunknown v hv).1) (fun v hv => (hunknown v hv).2)
      (.inl rfl)
  · exact counts_setSize .string (fun v hv => (hknown v hv).1) (fun v hv => (hknown v hv).2)
      (.inl rfl)

end Eval

end StaticConfig

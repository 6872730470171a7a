import StaticConfig.Proofs.Conversion.Markers
import StaticConfig.Proofs.Evaluation.Built
import StaticConfig.Proofs.Evaluation.Scopes
import StaticConfig.Proofs.Fields
import StaticConfig.Proofs.Sensitivity.Passed

/-!
What a for expression makes of its collection. Its rounds keep the items that the condition lets
through, in order; without keys their values make a tuple, with keys an object, and with grouping
an object of tuples. A key that occurs twice is an error unless items are grouped.
-/
namespace StaticConfig.Fields

variable {α : Type}

theorem length_insert_of_get?_eq_none {name : String} {fields : Fields α}
    (h : get? name fields = none) (a : α) : (insert name a fields).length = fields.length + 1 := by
  induction fields with
  | nil => rfl
  | cons e rest ih =>
    have hne : e.1 ≠ name := by
      intro he
      simp [get?, he] at h
    rw [get?, if_neg hne] at h
    rw [insert, if_neg (Ne.symm hne)]
    split
    · rfl
    · rw [List.length_cons, ih h, List.length_cons]

theorem get?_insertAll_of_not_mem {name : String} {new : Fields α} (h : name ∉ keys new)
    (fields : Fields α) : get? name (insertAll new fields) = get? name fields := by
  induction new generalizing fields with
  | nil => rfl
  | cons e rest ih =>
    have hhead : name ≠ e.1 := fun he => h (he ▸ List.mem_cons_self)
    have htail : name ∉ keys rest := fun hmem => h (List.mem_cons_of_mem _ hmem)
    exact (ih htail _).trans (get?_insert_of_ne hhead e.2 fields)

/-- Entries of different names are all found after they have been added. -/
theorem get?_insertAll_of_mem {new : Fields α} (hnew : (keys new).Nodup) {e : String × α}
    (h : e ∈ new) (fields : Fields α) : get? e.1 (insertAll new fields) = some e.2 := by
  induction new generalizing fields with
  | nil => cases h
  | cons d rest ih =>
    obtain ⟨hfirst, hrest⟩ := List.nodup_cons.1 hnew
    rcases List.mem_cons.1 h with rfl | h
    · exact (get?_insertAll_of_not_mem hfirst _).trans (get?_insert_self _ _ _)
    · exact ih hrest h _

theorem length_insertAll {new : Fields α} (hnew : (keys new).Nodup) {fields : Fields α}
    (h : ∀ name ∈ keys new, get? name fields = none) :
    (insertAll new fields).length = fields.length + new.length := by
  induction new generalizing fields with
  | nil => rfl
  | cons e rest ih =>
    obtain ⟨hfirst, hrest⟩ := List.nodup_cons.1 hnew
    have hlength := length_insert_of_get?_eq_none (h e.1 List.mem_cons_self) e.2
    have hlater : ∀ name ∈ keys rest, get? name (insert e.1 e.2 fields) = none := by
      intro name hname
      have hne : name ≠ e.1 := fun he => hfirst (he ▸ hname)
      rw [get?_insert_of_ne hne]
      exact h name (List.mem_cons_of_mem _ hname)
    have hrun := ih hrest hlater
    rw [hlength] at hrun
    rw [List.length_cons]
    exact hrun.trans (by omega)

end StaticConfig.Fields

namespace StaticConfig.Value

/-- The items of the value with their keys: positions in a list or tuple, names in a map or object,
and of a set the items themselves. -/
inductive Iterates : Value → List (Value × Value) → Prop
  | list (elem : Ty) (items : List Value) :
      Iterates (.list elem items) (items.mapIdx fun i v => (ofNat i, v))
  | set (elem : Ty) (items : List Value) : Iterates (.set elem items) (items.map fun v => (v, v))
  | tuple (items : List Value) : Iterates (.tuple items) (items.mapIdx fun i v => (ofNat i, v))
  | map (elem : Ty) (entries : List (String × Value)) :
      Iterates (.map elem entries) (entries.map fun e => (string e.1, e.2))
  | object (attrs : List (String × Value)) :
      Iterates (.object attrs) (attrs.map fun e => (string e.1, e.2))

theorem indexed_eq_mapIdx (items : List Value) :
    ∀ start, indexed start items = items.mapIdx fun i v => (ofNat (start + i), v) := by
  induction items with
  | nil => exact fun start => rfl
  | cons v vs ih =>
    intro start
    rw [indexed, ih, List.mapIdx_cons]
    simp only [Nat.add_zero, Nat.add_assoc, Nat.add_comm 1]

theorem Iterates.iterated?_eq {v : Value} {pairs : List (Value × Value)} (h : v.Iterates pairs) :
    v.iterated? = some pairs := by
  cases h with
  | list elem items => simp [iterated?, elements?, items?, indexed_eq_mapIdx]
  | set elem items => rfl
  | tuple items => simp [iterated?, elements?, items?, indexed_eq_mapIdx]
  | map elem entries => rfl
  | object attrs => rfl

theorem isKnown_of_convertPrimitive {v r : Value} {want : Ty} (hwant : want ≠ .dynamic)
    (h : convertPrimitive v want = .ok r) : v.isKnown = true ∧ r.isKnown = true := by
  constructor
  · cases v with
    | unknown => cases want <;> first | exact absurd rfl hwant | cases h
    | sensitive => cases want <;> first | exact absurd rfl hwant | cases h
    | _ => rfl
  · rcases convertPrimitive_cases h with ⟨rfl, _⟩ | ⟨rfl, b, rfl⟩ | ⟨rfl, n, rfl⟩ | ⟨rfl, s, rfl⟩
    · exact absurd rfl hwant
    · rfl
    · rfl
    · rfl

theorem isKnown_of_items? {v : Value} {items : List Value} (h : v.items? = some items) :
    v.isKnown = true := by
  cases v <;> first | rfl | cases h

theorem isKnown_of_entries? {v : Value} {entries : Fields Value} (h : v.entries? = some entries) :
    v.isKnown = true := by
  cases v <;> first | rfl | cases h

/-- A value that is converted stays as known as it was. -/
theorem Converts.isKnown_eq {v r : Value} {want : Ty} (h : Converts v want r) :
    r.isKnown = v.isKnown := by
  induction h with
  | sensitive _ ih => exact (isKnown_markIf true _).trans ih
  | dynamic _ => rfl
  | null _ => rfl
  | unknown _ _ => rfl
  | primitive hwant h =>
    obtain ⟨hv, hr⟩ := isKnown_of_convertPrimitive hwant h
    exact hr.trans hv.symm
  | list h _ _ _ _ => exact (isKnown_of_items? h).symm
  | set h _ _ _ _ => exact (isKnown_of_items? h).symm
  | tuple h _ _ _ _ => exact (isKnown_of_items? h).symm
  | map h _ _ _ _ => exact (isKnown_of_entries? h).symm
  | object h _ _ _ _ => exact (isKnown_of_entries? h).symm

theorem isNull_of_convert {v r : Value} {want : Ty} (h : v.convert want = .ok r) :
    v.isNull = r.isNull :=
  (converts_of_convert v h).isNull_eq.symm

theorem isKnown_of_convert {v r : Value} {want : Ty} (h : v.convert want = .ok r) :
    v.isKnown = r.isKnown :=
  (converts_of_convert v h).isKnown_eq.symm

end StaticConfig.Value

namespace StaticConfig.Eval

open Value

/-- The parts of a for expression that its rounds evaluate, and where. -/
structure Loop where
  setting : Setting
  env : Env
  keyVar : Option String
  valueVar : String
  key : Option Expr
  value : Expr
  cond : Option Expr

namespace Loop

variable (l : Loop)

/-- What the expression evaluates to in the round of an item. -/
def inRound (e : Expr) (pair : Value × Value) : Value :=
  (eval l.setting (bindItem l.keyVar l.valueVar pair l.env) e).result

def valueOf (pair : Value × Value) : Value :=
  l.inRound l.value pair

/-- The key of the item, as text. -/
def keyOf (pair : Value × Value) : String :=
  (l.key.bind fun key => ((l.inRound key pair).bare.convert? .string).bind string?).getD ""

/-- The condition, if there is one, is true of the item. -/
def admits (pair : Value × Value) : Bool :=
  l.cond.all fun cond => ((l.inRound cond pair).bare.convert? .bool).bind bool? == some true

/-- The items that stay. -/
def kept (pairs : List (Value × Value)) : List (Value × Value) :=
  pairs.filter l.admits

def condMarked (pair : Value × Value) : Bool :=
  l.cond.any fun cond => (l.inRound cond pair).hasMark

def keyMarked (pair : Value × Value) : Bool :=
  l.key.any fun key => (l.inRound key pair).hasMark

/-- A condition or key that has been looked at is marked. -/
def marked (pairs : List (Value × Value)) : Bool :=
  pairs.any l.condMarked || (l.kept pairs).any l.keyMarked

/-- The condition is known, and the key if the item stays. -/
structure Known (pair : Value × Value) : Prop where
  condition : ∀ cond, l.cond = some cond → (l.inRound cond pair).isKnown = true
  key : l.admits pair = true → ∀ key, l.key = some key → (l.inRound key pair).isKnown = true

/-- The condition is a truth value, and the key a text if the item stays. -/
structure Settled (pair : Value × Value) : Prop where
  condition : ∀ cond, l.cond = some cond →
    ∃ b, (l.inRound cond pair).bare.convert .bool = .ok (.bool b)
  key : l.admits pair = true → ∀ key, l.key = some key →
    ∃ text, (l.inRound key pair).bare.convert .string = .ok (.string text)

/-- What the items that stay make: a tuple of their values, an object of them under their keys, or
the values of each key in a tuple of their own. -/
inductive Makes (items : List (Value × Value)) : (keyed group : Bool) → Value → Prop
  | tuple (group : Bool) : Makes items false group (.tuple (items.map l.valueOf))
  | object (attrs : Fields Value) (distinct : (items.map l.keyOf).Nodup)
      (size : attrs.length = items.length)
      (found : ∀ pair ∈ items, attrs.get? (l.keyOf pair) = some (l.valueOf pair)) :
      Makes items true false (.object attrs)
  | groups (groups : Fields (List Value))
      (found : ∀ key, groups.get? key = if key ∈ items.map l.keyOf then
        some ((items.filter (l.keyOf · == key)).map l.valueOf) else none)
      (size : (groups.map fun g => g.2.length).sum = items.length) :
      Makes items true true (.object (groups.mapValues .tuple))

def expr (span : Span) (collection : Expr) (group : Bool) : Expr :=
  .forEach span l.keyVar l.valueVar collection l.key l.value l.cond group

/-- A round of the loop. -/
def entry (pair : Value × Value) : Eval (Item × Bool) :=
  forEntry l.setting l.env l.keyVar l.valueVar l.key l.value l.cond pair

/-- What the round of an item gives if its condition and key are settled. -/
def outcome (pair : Value × Value) : Item × Bool :=
  if l.admits pair then
    (.keep (l.key.map fun _ => l.keyOf pair) (l.valueOf pair),
      l.condMarked pair || l.keyMarked pair)
  else (.skip, l.condMarked pair)

/-- The items that stay, as the loop gathers them. -/
def gathered (pairs : List (Value × Value)) : List (Option String × Value) :=
  (l.kept pairs).map fun pair => (l.key.map fun _ => l.keyOf pair, l.valueOf pair)

end Loop

variable {l : Loop} {pair : Value × Value} {pairs : List (Value × Value)}

/-- How the computation ends, whatever it reports. -/
def ending {α : Type} (m : Eval α) : Except EvalError α :=
  (ExceptT.run m).result

section Ending

variable {α β : Type}

theorem ending_report (r : Report α) : ending (liftM r) = .ok r.result := rfl

theorem ending_of_gives {m : Eval α} {a : α} (h : Gives m a) : ending m = .ok a := by
  rw [h]
  rfl

theorem ending_bind (m : Eval α) (f : α → Eval β) :
    ending (m >>= f) = (ending m).bind fun a => ending (f a) := by
  obtain ⟨result, diags⟩ := m
  cases result <;> rfl

/-- An error that ends a computation is reported. -/
theorem settle_of_ending_error {m : Eval Value} {e : EvalError} (h : ending m = .error e) :
    (settle m).result = .dynamic ∧ e.diagnostic ∈ (settle m).diags := by
  obtain ⟨result, diags⟩ := m
  obtain rfl : result = .error e := h
  exact ⟨rfl, List.mem_append_right _ List.mem_cons_self⟩

end Ending

namespace Loop

/-! One round. -/

section Round

variable {s : Setting} {env : Env} {e : Expr}

theorem ending_evalFilter {b : Bool}
    (h : (eval s env e).result.bare.convert .bool = .ok (.bool b)) :
    ending (evalFilter s env (some e)) = .ok (some b, (eval s env e).result.hasMark) := by
  have hnull : (eval s env e).result.bare.isNull = false := isNull_of_convert h
  rw [evalFilter, ending_bind, ending_report]
  simp only [Except.bind, hnull, truth, h]
  rfl

theorem ending_evalKey {text : String}
    (h : (eval s env e).result.bare.convert .string = .ok (.string text)) :
    ending (evalKey s env (some e)) =
      .ok (some (some text), (eval s env e).result.hasMark) := by
  have hnull : (eval s env e).result.bare.isNull = false := isNull_of_convert h
  have hknown : (eval s env e).result.bare.isKnown = true := isKnown_of_convert h
  rw [evalKey, ending_bind, ending_report]
  simp only [Except.bind, keyText, hnull, hknown, h]
  rfl

/-- A condition that has been decided is a truth value if it is known. -/
theorem exists_bool_of_gives {x : Option Bool × Bool} (h : Gives (evalFilter s env (some e)) x)
    (hknown : (eval s env e).result.isKnown = true) :
    ∃ b, (eval s env e).result.bare.convert .bool = .ok (.bool b) := by
  obtain ⟨c, d, hc, hnull, hd, -⟩ := gives_filter.1 h
  rw [hc] at hknown ⊢
  obtain ⟨r, hr, -⟩ := Except.map_eq_ok.1 hd
  have hr' : r.isKnown = true := by
    rw [← isKnown_of_convert hr, isKnown_bare]
    exact hknown
  cases ofPrimitive_of_convert rfl hnull hr with
  | bool b => exact ⟨b, hr⟩
  | unknown t => cases hr'

theorem exists_text_of_gives {x : Option (Option String) × Bool}
    (h : Gives (evalKey s env (some e)) x) (hknown : (eval s env e).result.isKnown = true) :
    ∃ text, (eval s env e).result.bare.convert .string = .ok (.string text) := by
  obtain ⟨k, t, hk, ht, -⟩ := gives_key.1 h
  rw [hk] at hknown ⊢
  rw [← isKnown_bare] at hknown
  unfold keyText at ht
  split at ht
  · cases ht
  next hnull =>
  split at ht
  · next hunknown => simp [hknown] at hunknown
  split at ht
  next r hr =>
    have hr' : r.isKnown = true := isKnown_of_convert hr ▸ hknown
    cases ofPrimitive_of_convert rfl (Bool.eq_false_iff.2 hnull) hr with
    | string text => exact ⟨text, hr⟩
    | unknown t => cases hr'
  · cases ht

end Round

theorem ending_filter (h : ∀ cond, l.cond = some cond →
      ∃ b, (l.inRound cond pair).bare.convert .bool = .ok (.bool b)) :
    ending (evalFilter l.setting (bindItem l.keyVar l.valueVar pair l.env) l.cond) =
      .ok (some (l.admits pair), l.condMarked pair) := by
  unfold admits condMarked inRound at *
  cases hcond : l.cond with
  | none => rfl
  | some cond =>
    obtain ⟨b, hb⟩ := h cond hcond
    rw [ending_evalFilter hb]
    simp only [Option.all_some, Option.any_some, convert?, hb]
    cases b <;> rfl

theorem Settled.ending_key (h : l.Settled pair) (hadmits : l.admits pair = true) :
    ending (evalKey l.setting (bindItem l.keyVar l.valueVar pair l.env) l.key) =
      .ok (some (l.key.map fun _ => l.keyOf pair), l.keyMarked pair) := by
  have hkey := h.key hadmits
  unfold keyOf keyMarked inRound at *
  cases hkeyed : l.key with
  | none => rfl
  | some key =>
    obtain ⟨text, htext⟩ := hkey key hkeyed
    rw [ending_evalKey htext]
    simp only [Option.bind_some, Option.any_some, convert?, htext]
    rfl

theorem Settled.ending_entry (h : l.Settled pair) :
    ending (l.entry pair) = .ok (l.outcome pair) := by
  have hfilter := ending_filter h.condition
  have hkey := h.ending_key
  rw [entry, forEntry, ending_bind, hfilter, outcome]
  cases hadmits : l.admits pair with
  | false => rfl
  | true =>
    dsimp only [Except.bind]
    rw [ending_bind, hkey hadmits]
    rfl

theorem Known.settled (h : l.Known pair) {x : Item × Bool} (hx : Gives (l.entry pair) x) :
    l.Settled pair := by
  obtain ⟨d, m, hd, -, -, -, hkeep⟩ := gives_forEntry hx
  have hcondition : ∀ cond, l.cond = some cond →
      ∃ b, (l.inRound cond pair).bare.convert .bool = .ok (.bool b) := by
    intro cond hcond
    rw [hcond] at hd
    exact exists_bool_of_gives hd (h.condition cond hcond)
  refine ⟨hcondition, fun hadmits key hkeyed => ?_⟩
  have hfilter := ending_filter hcondition
  rw [ending_of_gives hd, hadmits] at hfilter
  cases hfilter
  obtain ⟨t, n, ht, -⟩ := hkeep rfl
  rw [hkeyed] at ht
  exact exists_text_of_gives ht (h.key hadmits key hkeyed)

/-! All rounds. -/

section Rounds

variable {unique : Bool} {span : Span} {kept : List (Option String × Value)} {marked : Bool}
  {more : List (Value × Value)}

/-- The keys under which items have been gathered. -/
def names (kept : List (Option String × Value)) : List String :=
  kept.filterMap Prod.fst

theorem gathered_cons_of_admits (h : l.admits pair = true) :
    l.gathered (pair :: pairs) =
      (l.key.map fun _ => l.keyOf pair, l.valueOf pair) :: l.gathered pairs := by
  rw [gathered, Loop.kept, List.filter_cons_of_pos h]
  rfl

theorem gathered_cons_of_not_admits (h : l.admits pair = false) :
    l.gathered (pair :: pairs) = l.gathered pairs := by
  rw [gathered, Loop.kept, List.filter_cons_of_neg (by simp [h])]
  rfl

theorem any_name_iff {k : String} :
    (kept.any fun other => other.1 == some k) = true ↔ k ∈ names kept := by
  simp [names]

/-- An item whose key has not occurred, or may occur again, is gathered. -/
theorem ending_gather_keep {key : Option String} {v : Value} {m : Bool}
    (hpair : ending (l.entry pair) = .ok (.keep key v, m))
    (hfresh : unique = true → ∀ k, key = some k → k ∉ names kept) :
    ending (gather unique span l.entry kept marked (pair :: more)) =
      ending (gather unique span l.entry (kept ++ [(key, v)]) (marked || m) more) := by
  rw [gather, ending_bind, hpair]
  cases key with
  | none => rfl
  | some k =>
    have hdup : (unique && kept.any fun other => other.1 == some k) = false := by
      rw [Bool.and_eq_false_imp]
      intro hunique
      rw [Bool.eq_false_iff, Ne, any_name_iff]
      exact hfresh hunique k rfl
    simp only [Except.bind, hdup, Bool.false_eq_true, if_false]

theorem ending_gather_repeated {k : String} {v : Value} {m : Bool}
    (hpair : ending (l.entry pair) = .ok (.keep (some k) v, m)) (hk : k ∈ names kept) :
    ending (gather true span l.entry kept marked (pair :: more)) =
      .error ⟨span, .duplicateItemKey k⟩ := by
  rw [gather, ending_bind, hpair]
  have hdup := any_name_iff.2 hk
  simp only [Except.bind, hdup, Bool.and_self, if_true]
  rfl

theorem ending_gather_skip {m : Bool} (hpair : ending (l.entry pair) = .ok (.skip, m)) :
    ending (gather unique span l.entry kept marked (pair :: more)) =
      ending (gather unique span l.entry kept (marked || m) more) := by
  rw [gather, ending_bind, hpair]
  rfl

theorem marked_cons :
    l.marked (pair :: pairs) = ((l.outcome pair).2 || l.marked pairs) := by
  rw [Loop.marked, Loop.marked, Loop.kept, outcome]
  cases hadmits : l.admits pair with
  | false =>
    rw [List.filter_cons_of_neg (by simp [hadmits]), List.any_cons, Loop.kept]
    simp [Bool.or_assoc]
  | true =>
    rw [List.filter_cons_of_pos hadmits, List.any_cons, List.any_cons, Loop.kept]
    simp [Bool.or_assoc, Bool.or_left_comm]

theorem names_append (more : List (Option String × Value)) :
    names (kept ++ more) = names kept ++ names more :=
  List.filterMap_append

theorem names_single {key : Option String} {v : Value} : names [(key, v)] = key.toList := by
  cases key <;> rfl

/-- Rounds whose conditions and keys are settled gather the items that stay. -/
theorem ending_gather_of_distinct (hsettled : ∀ pair ∈ pairs, l.Settled pair) :
    ∀ kept marked, (unique = true → (names (kept ++ l.gathered pairs)).Nodup) →
      ending (gather unique span l.entry kept marked (pairs ++ more)) =
        ending (gather unique span l.entry (kept ++ l.gathered pairs)
          (marked || l.marked pairs) more) := by
  induction pairs with
  | nil =>
    intro kept marked _
    rw [gathered, Loop.kept, Loop.marked, Loop.kept]
    simp
  | cons pair pairs ih =>
    intro kept marked hdistinct
    obtain ⟨hpair, hrest⟩ := List.forall_mem_cons.1 hsettled
    have hentry := hpair.ending_entry
    rw [List.cons_append, marked_cons, ← Bool.or_assoc]
    unfold outcome at hentry ⊢
    cases hadmits : l.admits pair with
    | false =>
      rw [hadmits] at hentry
      rw [gathered_cons_of_not_admits hadmits] at hdistinct ⊢
      exact (ending_gather_skip hentry).trans (ih hrest _ _ hdistinct)
    | true =>
      rw [hadmits] at hentry
      rw [gathered_cons_of_admits hadmits, List.append_cons] at hdistinct ⊢
      refine (ending_gather_keep hentry fun hunique k hk hmem => ?_).trans (ih hrest _ _ hdistinct)
      have hnodup := hdistinct hunique
      rw [names_append, names_append, names_single, hk] at hnodup
      exact List.disjoint_of_nodup_append (List.Nodup.of_append_left hnodup) hmem
        List.mem_cons_self

/-- A key that occurs twice ends the loop. -/
theorem ending_gather_of_repeated (hsettled : ∀ pair ∈ pairs, l.Settled pair) :
    ∀ kept marked, (names kept).Nodup → ¬ (names (kept ++ l.gathered pairs)).Nodup →
      ∃ k, ending (gather true span l.entry kept marked (pairs ++ more)) =
        .error ⟨span, .duplicateItemKey k⟩ := by
  induction pairs with
  | nil =>
    intro kept marked hkept hrepeated
    exact absurd hkept (by simpa [gathered, Loop.kept] using hrepeated)
  | cons pair pairs ih =>
    intro kept marked hkept hrepeated
    obtain ⟨hpair, hrest⟩ := List.forall_mem_cons.1 hsettled
    have hentry := hpair.ending_entry
    rw [List.cons_append]
    unfold outcome at hentry
    cases hadmits : l.admits pair with
    | false =>
      rw [hadmits] at hentry
      rw [gathered_cons_of_not_admits hadmits] at hrepeated
      rw [ending_gather_skip hentry]
      exact ih hrest _ _ hkept hrepeated
    | true =>
      rw [hadmits] at hentry
      rw [gathered_cons_of_admits hadmits, List.append_cons] at hrepeated
      cases hkey : l.key with
      | none =>
        rw [hkey] at hentry hrepeated
        rw [ending_gather_keep hentry fun _ k hk => nomatch hk]
        refine ih hrest _ _ ?_ hrepeated
        rw [names_append, names_single]
        simpa using hkept
      | some key =>
        rw [hkey] at hentry hrepeated
        by_cases hmem : l.keyOf pair ∈ names kept
        · exact ⟨_, ending_gather_repeated hentry hmem⟩
        · rw [ending_gather_keep hentry fun _ k hk => by cases hk; exact hmem]
          refine ih hrest _ _ ?_ hrepeated
          rw [names_append, names_single]
          exact hkept.append (List.nodup_singleton _) (by simpa using hmem)

/-- A loop that reports nothing and meets nothing unknown has settled conditions and keys. -/
theorem settled_of_gives (hknown : ∀ pair ∈ pairs, l.Known pair) :
    ∀ {kept marked x}, Gives (gather unique span l.entry kept marked pairs) x →
      ∀ pair ∈ pairs, l.Settled pair := by
  induction pairs with
  | nil => exact fun _ pair hpair => nomatch hpair
  | cons pair pairs ih =>
    intro kept marked x hx
    obtain ⟨hpair, hrest⟩ := List.forall_mem_cons.1 hknown
    obtain ⟨item, m, hitem, -, hskip, hkeep⟩ := gives_gather_cons hx
    have hsettled := hpair.settled hitem
    have houtcome : (item, m) = l.outcome pair :=
      Except.ok.inj ((ending_of_gives hitem).symm.trans hsettled.ending_entry)
    refine List.forall_mem_cons.2 ⟨hsettled, ?_⟩
    unfold outcome at houtcome
    cases hadmits : l.admits pair with
    | false =>
      rw [hadmits] at houtcome
      exact ih hrest (hskip (congrArg Prod.fst houtcome))
    | true =>
      rw [hadmits] at houtcome
      exact ih hrest (hkeep _ _ (congrArg Prod.fst houtcome))

end Rounds

/-! What is made of the items that stay. -/

section Assembled

variable {named : List (String × Value)} {groups : Fields (List Value)}

theorem get?_intoGroup (key : String) (e : String × Value) :
    (intoGroup e.1 e.2 groups).get? key =
      if e.1 = key then some ((groups.get? key).getD [] ++ [e.2]) else groups.get? key := by
  rw [intoGroup]
  split
  · next h => rw [← h, Fields.get?_insert_self]
  · next h => exact Fields.get?_insert_of_ne (Ne.symm h) _ _

/-- A group has what it had and then, in order, the values that have come under its key. -/
theorem get?_grouped (named : List (String × Value)) (groups : Fields (List Value))
    (key : String) :
    (named.foldl (fun acc e => intoGroup e.1 e.2 acc) groups).get? key =
      if key ∈ named.map Prod.fst then
        some ((groups.get? key).getD [] ++ (named.filter (·.1 == key)).map Prod.snd)
      else groups.get? key := by
  induction named generalizing groups with
  | nil => rfl
  | cons e named ih =>
    rw [List.foldl_cons, ih, get?_intoGroup]
    by_cases hkey : e.1 = key
    · subst hkey
      by_cases hmem : e.1 ∈ named.map Prod.fst
      · simp [hmem]
      · have hnone : named.filter (·.1 == e.1) = [] := by
          rw [List.filter_eq_nil_iff]
          intro d hd he
          exact hmem (List.mem_map.2 ⟨d, hd, beq_iff_eq.1 he⟩)
        simp [hmem, hnone]
    · have hmem : key ∈ (e :: named).map Prod.fst ↔ key ∈ named.map Prod.fst := by
        rw [List.map_cons, List.mem_cons]
        exact or_iff_right (Ne.symm hkey)
      have hfilter : (e :: named).filter (·.1 == key) = named.filter (·.1 == key) :=
        List.filter_cons_of_neg (by simpa using hkey)
      simp only [hmem, hfilter, hkey, if_false]

/-- How many values the groups have together. -/
def total (groups : Fields (List Value)) : Nat :=
  (groups.map fun g => g.2.length).sum

theorem total_insert (hs : Fields.Sorted groups) (key : String) (values : List Value) :
    total (groups.insert key values) + ((groups.get? key).getD []).length =
      total groups + values.length := by
  induction groups with
  | nil => simp [Fields.insert, Fields.get?, total]
  | cons g groups ih =>
    obtain ⟨name, held⟩ := g
    obtain ⟨hlt, hrest⟩ := List.pairwise_cons.1 hs
    simp only [Fields.insert, Fields.get?]
    by_cases heq : key = name
    · subst heq
      simp only [if_true, Option.getD_some, total, List.map_cons, List.sum_cons]
      omega
    · simp only [heq, Ne.symm heq, if_false]
      by_cases hname : key < name
      · have hnone : Fields.get? key groups = none :=
          Fields.get?_eq_none_of_forall_lt fun e he => String.lt_trans hname (hlt e he)
        simp only [hname, if_true, hnone, Option.getD_none, total, List.map_cons, List.sum_cons,
          List.length_nil]
        omega
      · have hrun := ih hrest
        simp only [hname, if_false, total, List.map_cons, List.sum_cons] at hrun ⊢
        omega

theorem total_grouped (hs : Fields.Sorted groups) :
    total (named.foldl (fun acc e => intoGroup e.1 e.2 acc) groups) =
      total groups + named.length := by
  induction named generalizing groups with
  | nil => rfl
  | cons e named ih =>
    have hstep := total_insert hs e.1 ((groups.get? e.1).getD [] ++ [e.2])
    rw [List.length_append] at hstep
    have hrun := ih (Fields.sorted_insert hs e.1 ((Fields.get? e.1 groups).getD [] ++ [e.2]))
    refine hrun.trans ?_
    rw [List.length_cons]
    rw [List.length_singleton] at hstep
    omega

theorem makes_assemble (pairs : List (Value × Value)) (group : Bool)
    (hdistinct : l.key.isSome = true → group = false → ((l.kept pairs).map l.keyOf).Nodup) :
    l.Makes (l.kept pairs) l.key.isSome group (assemble l.key.isSome group (l.gathered pairs)) := by
  have hnamed (hkey : l.key.isSome = true) : (l.gathered pairs).map (fun e => (e.1.getD "", e.2)) =
      (l.kept pairs).map fun pair => (l.keyOf pair, l.valueOf pair) := by
    obtain ⟨key, hkey⟩ := Option.isSome_iff_exists.1 hkey
    simp [gathered, hkey, Function.comp_def]
  cases hkeyed : l.key.isSome with
  | false =>
    have hvalues : (l.gathered pairs).map Prod.snd = (l.kept pairs).map l.valueOf := by
      simp [gathered, Function.comp_def]
    rw [assemble]
    simp only [Bool.not_false, if_true, hvalues]
    exact .tuple group
  | true =>
    rw [assemble]
    simp only [Bool.not_true, Bool.false_eq_true, if_false, hnamed hkeyed]
    cases group with
    | false =>
      have hnames : Fields.keys ((l.kept pairs).map fun pair => (l.keyOf pair, l.valueOf pair)) =
          (l.kept pairs).map l.keyOf := by
        simp [Fields.keys, Function.comp_def]
      have hnodup := hnames ▸ hdistinct hkeyed rfl
      refine .object _ (hdistinct hkeyed rfl) ?_ fun pair hpair => ?_
      · exact (Fields.length_insertAll hnodup fun _ _ => rfl).trans (by simp)
      · exact Fields.get?_insertAll_of_mem hnodup (List.mem_map.2 ⟨pair, hpair, rfl⟩) []
    | true =>
      refine .groups _ (fun key => ?_) ?_
      · have hnames : ((l.kept pairs).map fun pair => (l.keyOf pair, l.valueOf pair)).map Prod.fst =
            (l.kept pairs).map l.keyOf := by
          simp [Function.comp_def]
        rw [get?_grouped, hnames]
        simp [Function.comp_def, List.filter_map, Fields.get?]
      · exact (total_grouped .nil).trans (by simp [total])

end Assembled

theorem names_gathered {key : Expr} (hkey : l.key = some key) (pairs : List (Value × Value)) :
    names (l.gathered pairs) = (l.kept pairs).map l.keyOf := by
  simp [names, gathered, hkey]

/-- What a loop over settled items that ends well has gathered. -/
theorem gathered_of_gives {unique : Bool} {span : Span} {marked m : Bool}
    {kept : Option (List (Option String × Value))} (hsettled : ∀ pair ∈ pairs, l.Settled pair)
    (h : Gives (gather unique span l.entry [] marked pairs) (kept, m)) :
    (unique = true → (names (l.gathered pairs)).Nodup) ∧
      kept = some (l.gathered pairs) ∧ m = (marked || l.marked pairs) := by
  have hend := ending_of_gives h
  have hdistinct : unique = true → (names (l.gathered pairs)).Nodup := by
    rintro rfl
    by_contra hrepeated
    obtain ⟨k, hk⟩ : ∃ k, ending (gather true span l.entry [] marked (pairs ++ [])) =
        .error ⟨span, .duplicateItemKey k⟩ :=
      ending_gather_of_repeated hsettled [] marked .nil hrepeated
    rw [List.append_nil] at hk
    cases hend.symm.trans hk
  have hrun : ending (gather unique span l.entry [] marked (pairs ++ [])) =
      ending (gather unique span l.entry ([] ++ l.gathered pairs) (marked || l.marked pairs) []) :=
    ending_gather_of_distinct hsettled [] marked hdistinct
  rw [List.append_nil, hend] at hrun
  cases hrun
  exact ⟨hdistinct, rfl, rfl⟩

end Loop

theorem iterate_eq_of_iterates {entry : Value × Value → Eval (Item × Bool)} {keyed group : Bool}
    {span keySpan : Span} {c : Value} (h : c.unmarked.Iterates pairs) :
    iterate entry keyed group span keySpan c = (do
      let (kept, marked) ← gather (!group) keySpan entry [] c.isMarked pairs
      match kept with
      | none => pure (Value.dynamic.markIf marked)
      | some kept => pure ((assemble keyed group kept).markIf marked)) := by
  have hpairs := h.iterated?_eq
  unfold iterate
  generalize c.unmarked = bare at h hpairs ⊢
  cases h
  all_goals simp only [hpairs] <;> rfl

section Whole

variable {span : Span} {collection : Expr} {group : Bool}

/-- A loop that reports nothing and meets nothing unknown makes the collection of the items that
stay, with the mark of what it iterates and of its conditions and keys. -/
theorem Loop.makes_of_clean (l : Loop)
    (hpairs : (eval l.setting l.env collection).result.unmarked.Iterates pairs)
    (hclean : (eval l.setting l.env (l.expr span collection group)).diags = [])
    (hknown : ∀ pair ∈ pairs, l.Known pair) :
    ∃ v, l.Makes (l.kept pairs) l.key.isSome group v ∧
      (eval l.setting l.env (l.expr span collection group)).result =
        markIf ((eval l.setting l.env collection).result.isMarked || l.marked pairs) v := by
  obtain ⟨c, hc, hvalue⟩ := eval_forEach_of_clean (Report.eq_of_diags rfl hclean)
  rw [hc] at hpairs ⊢
  rcases hvalue with ⟨t, ht, -⟩ | ⟨pairs', kept, m, hpairs', hgives, hresult⟩
  · rw [ht] at hpairs
    cases hpairs
  · cases hpairs.iterated?_eq.symm.trans hpairs'
    have hsettled := settled_of_gives hknown hgives
    obtain ⟨hdistinct, rfl, rfl⟩ := gathered_of_gives hsettled hgives
    refine ⟨_, makes_assemble pairs group fun hkeyed hgroup => ?_, hresult⟩
    obtain ⟨key, hkey⟩ := Option.isSome_iff_exists.1 hkeyed
    rw [← names_gathered hkey]
    exact hdistinct (by rw [hgroup]; rfl)

/-- Without grouping, a loop whose settled items repeat a key fails. -/
theorem Loop.fails_of_repeated (l : Loop) {key : Expr} {before after : List (Value × Value)}
    (hkey : l.key = some key)
    (hpairs : (eval l.setting l.env collection).result.unmarked.Iterates (before ++ after))
    (hsettled : ∀ pair ∈ before, l.Settled pair)
    (hrepeated : ¬ ((l.kept before).map l.keyOf).Nodup) :
    (eval l.setting l.env (l.expr span collection false)).result = .dynamic ∧
      ∃ name, EvalError.diagnostic ⟨key.span, .duplicateItemKey name⟩ ∈
        (eval l.setting l.env (l.expr span collection false)).diags := by
  rw [← names_gathered hkey] at hrepeated
  let marked := (eval l.setting l.env collection).result.isMarked
  obtain ⟨name, hname⟩ : ∃ name, ending (gather true key.span l.entry [] marked (before ++ after)) =
      .error ⟨key.span, .duplicateItemKey name⟩ :=
    ending_gather_of_repeated hsettled [] marked .nil hrepeated
  have hend : ending (do
      let c ← (liftM (eval l.setting l.env collection) : Eval Value)
      iterate l.entry l.key.isSome false collection.span ((l.key.map Expr.span).getD span) c) =
        .error ⟨key.span, .duplicateItemKey name⟩ := by
    rw [ending_bind, ending_report, Except.bind, iterate_eq_of_iterates hpairs, ending_bind, hkey]
    exact congrArg (Except.bind · _) hname
  rw [expr, eval_forEach]
  obtain ⟨hresult, hmem⟩ := settle_of_ending_error hend
  exact ⟨hresult, name, hmem⟩

end Whole

/-- A for expression filters, maps and groups. It leaves the stack of scopes as it was, also when
an item fails. If it reports nothing and meets nothing unknown, it makes the collection of the items
that its condition holds for, marked if the collection, a condition or a key is. Without grouping, a
key that occurs twice is an error. -/
theorem forEach_comprehends (s : Setting) (outer : Env) (scopes : Scopes) (span : Span)
    (keyVar : Option String) (valueVar : String) (collection : Expr) (key : Option Expr)
    (value : Expr) (cond : Option Expr) (group : Bool) :
    let l : Loop := ⟨s, Scopes.names scopes outer, keyVar, valueVar, key, value, cond⟩
    let e := Expr.forEach span keyVar valueVar collection key value cond group
    let c := (eval s l.env collection).result
    let r := eval s l.env e
    Stacked.eval s outer e scopes = ⟨(r.result, scopes), r.diags⟩ ∧
      ∀ pairs, c.unmarked.Iterates pairs →
        (r.diags = [] → (∀ pair ∈ pairs, l.Known pair) →
          ∃ v, l.Makes (l.kept pairs) key.isSome group v ∧
            r.result = markIf (c.isMarked || l.marked pairs) v) ∧
        ∀ k before after, key = some k → group = false → pairs = before ++ after →
          (∀ pair ∈ before, l.Settled pair) → ¬ ((l.kept before).map l.keyOf).Nodup →
          r.result = .dynamic ∧ ∃ name,
            EvalError.diagnostic ⟨k.span, .duplicateItemKey name⟩ ∈ r.diags := by
  intro l e c r
  refine ⟨Stacked.keeps_eval s outer scopes e, fun pairs hpairs => ⟨fun hclean hknown => ?_, ?_⟩⟩
  · exact l.makes_of_clean hpairs hclean hknown
  · rintro k before after hkey rfl rfl hsettled hrepeated
    exact l.fails_of_repeated hkey hpairs hsettled hrepeated

/-- Grouped by themselves, a marked tuple of texts makes a marked object of tuples. Ungrouped, the
text that occurs twice is an error. -/
theorem forEach_comprehends_texts :
    let s : Setting := ⟨fun _ _ => none, false⟩
    let items := [string "x", string "y", string "x"]
    let collection := Expr.literal default (.sensitive (.tuple items))
    let v := Expr.traversal default "v" []
    let e := Expr.forEach default none "v" collection (some v) v none
    let l : Loop := ⟨s, [], none, "v", some v, v, none⟩
    let pairs := items.mapIdx fun i v => (ofNat i, v)
    (∃ made, l.Makes (l.kept pairs) true true made ∧
        (eval s [] (e true)).result = markIf true made) ∧
      (eval s [] (e false)).result = .dynamic ∧ ∃ name,
        EvalError.diagnostic ⟨v.span, .duplicateItemKey name⟩ ∈ (eval s [] (e false)).diags := by
  intro s items collection v e l pairs
  have hpairs : Iterates (.tuple items) pairs := .tuple items
  have hmem : ∀ pair ∈ pairs, pair ∈ [(ofNat 0, string "x"), (ofNat 1, string "y"),
      (ofNat 2, string "x")] := fun pair hpair => hpair
  have hknown : ∀ pair ∈ pairs, l.Known pair := by
    intro pair hpair
    refine ⟨nofun, fun _ key hkey => ?_⟩
    cases hkey
    have hcases := hmem pair hpair
    simp only [List.mem_cons, List.not_mem_nil, or_false] at hcases
    rcases hcases with rfl | rfl | rfl <;> rfl
  have hsettled : ∀ pair ∈ pairs, l.Settled pair := by
    intro pair hpair
    refine ⟨nofun, fun _ key hkey => ?_⟩
    cases hkey
    have hcases := hmem pair hpair
    simp only [List.mem_cons, List.not_mem_nil, or_false] at hcases
    rcases hcases with rfl | rfl | rfl <;> exact ⟨_, rfl⟩
  obtain ⟨-, hgrouped⟩ := forEach_comprehends s [] [] default none "v" collection (some v) v none
    true
  obtain ⟨-, hplain⟩ := forEach_comprehends s [] [] default none "v" collection (some v) v none
    false
  refine ⟨(hgrouped pairs hpairs).1 rfl hknown, ?_⟩
  exact (hplain pairs hpairs).2 v pairs [] rfl rfl (List.append_nil _).symm hsettled (by decide)

end StaticConfig.Eval

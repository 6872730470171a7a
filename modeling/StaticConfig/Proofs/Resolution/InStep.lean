import StaticConfig.CallStack
import StaticConfig.Proofs.Fields

/-!
The two halves of a call stack. A reference is looked for among the addresses, and the order is
kept in the chain; each operation changes both on its own. Whatever is done one after the other on
an empty stack, the addresses are just those of the chain.
-/
namespace StaticConfig.CallStack

/-- The chain has no subject twice, and its texts are those by which references are found, each a
reference to the subject with this text. -/
structure InStep (s : CallStack) : Prop where
  nodup : s.chain.Nodup
  sorted : Fields.Sorted s.addresses
  mem_keys : ∀ name, name ∈ s.addresses.keys ↔ name ∈ s.chain
  subject_text : ∀ name r, s.addresses.get? name = some r → r.subject.text = name

variable {s s' : CallStack} {r : Reference}

theorem inStep_empty : empty.InStep :=
  ⟨List.nodup_nil, List.Pairwise.nil, fun _ => Iff.rfl, nofun⟩

theorem isActive_iff_mem_keys : s.isActive r = true ↔ r.subject.text ∈ s.addresses.keys :=
  Fields.contains_iff_mem_keys

/-- The addresses tell what the chain would. -/
theorem InStep.isActive_iff (h : s.InStep) : s.isActive r = true ↔ r.subject.text ∈ s.chain :=
  isActive_iff_mem_keys.trans (h.mem_keys _)

theorem mem_keys_enter (s : CallStack) (r : Reference) (name : String) :
    name ∈ (s.enter r).addresses.keys ↔ name = r.subject.text ∨ name ∈ s.addresses.keys := by
  rw [← Fields.contains_iff_mem_keys, ← Fields.contains_iff_mem_keys, enter,
    Fields.contains_insert, Bool.or_eq_true, beq_iff_eq]

theorem InStep.enter (h : s.InStep) (hidle : s.isActive r = false) : (s.enter r).InStep := by
  have hnew : r.subject.text ∉ s.chain := fun hmem =>
    Bool.false_ne_true (hidle.symm.trans (h.isActive_iff.2 hmem))
  refine ⟨?_, Fields.sorted_insert h.sorted _ r, fun name => ?_, fun name q hq => ?_⟩
  · exact (List.perm_append_singleton _ _).nodup_iff.2 (List.nodup_cons.2 ⟨hnew, h.nodup⟩)
  · rw [mem_keys_enter, h.mem_keys, CallStack.enter, List.mem_append, List.mem_singleton, or_comm]
  · by_cases hname : name = r.subject.text
    · subst hname
      rw [CallStack.enter, Fields.get?_insert_self] at hq
      rw [← Option.some.inj hq]
    · rw [CallStack.enter, Fields.get?_insert_of_ne hname] at hq
      exact h.subject_text name q hq

theorem InStep.push (h : s.InStep) (r : Reference) : (s.push r).2.InStep := by
  cases hr : s.isActive r with
  | true =>
    rw [push_of_isActive hr]
    exact h
  | false =>
    rw [push_of_not_isActive hr]
    exact h.enter hr

/-- What is taken off a stack is the last subject of its chain. -/
theorem pop?_eq_some_iff :
    s.pop? = some s' ↔
      ∃ last, s.chain = s'.chain ++ [last] ∧ s'.addresses = s.addresses.erase last := by
  rw [pop?, Option.map_eq_some_iff]
  constructor
  · rintro ⟨last, hlast, rfl⟩
    exact ⟨last, (List.dropLast_append_getLast? last hlast).symm, rfl⟩
  · rintro ⟨last, hchain, haddresses⟩
    refine ⟨last, by rw [hchain, List.getLast?_concat], ?_⟩
    rw [hchain, List.dropLast_concat, ← haddresses]

theorem InStep.pop? (h : s.InStep) (hs : s.pop? = some s') : s'.InStep := by
  obtain ⟨last, hchain, haddresses⟩ := pop?_eq_some_iff.1 hs
  have hget (name : String) : s'.addresses.get? name =
      if name = last then none else s.addresses.get? name := by
    rw [haddresses, Fields.get?_erase h.sorted]
  have hnodup := h.nodup
  rw [hchain, List.nodup_append] at hnodup
  refine ⟨hnodup.1, haddresses ▸ Fields.sorted_erase h.sorted last, fun name => ?_,
    fun name q hq => ?_⟩
  · have hname : name ∈ s'.chain ↔ name ≠ last ∧ name ∈ s.chain := by
      rw [hchain, List.mem_append, List.mem_singleton]
      constructor
      · exact fun hmem => ⟨hnodup.2.2 name hmem last (List.mem_singleton_self _), .inl hmem⟩
      · exact fun hmem => hmem.2.resolve_right hmem.1
    rw [hname, ← h.mem_keys]
    constructor
    · intro hmem
      obtain ⟨q, hq⟩ := Fields.exists_get?_of_mem_keys hmem
      rw [hget] at hq
      split at hq
      · cases hq
      · next hne => exact ⟨hne, Fields.mem_keys_of_get? hq⟩
    · rintro ⟨hne, hmem⟩
      obtain ⟨q, hq⟩ := Fields.exists_get?_of_mem_keys hmem
      have hq' : s'.addresses.get? name = some q := by rw [hget, if_neg hne, hq]
      exact Fields.mem_keys_of_get? hq'
  · rw [hget] at hq
    split at hq
    · cases hq
    · exact h.subject_text name q hq

/-- What can be done with a call stack. -/
inductive Operation where
  | push (r : Reference)
  | pop
  | clear

/-- The stack that an operation leaves. Where there is nothing to take off, nothing changes. -/
def Operation.apply (s : CallStack) : Operation → CallStack
  | push r => (s.push r).2
  | pop => s.pop?.getD s
  | clear => s.clear

/-- What the operations make of an empty stack, one after the other. -/
def after (ops : List Operation) : CallStack := ops.foldl Operation.apply empty

theorem InStep.apply (h : s.InStep) (op : Operation) : (op.apply s).InStep := by
  cases op with
  | push r => exact h.push r
  | pop =>
    rw [Operation.apply]
    cases hs : s.pop? with
    | none => exact h
    | some s' => exact h.pop? hs
  | clear => exact inStep_empty

theorem inStep_after (ops : List Operation) : (after ops).InStep :=
  List.foldlRecOn ops Operation.apply inStep_empty fun _ hs op _ => hs.apply op

theorem forall_values_apply {P : Reference → Prop} (hs : ∀ q ∈ s.addresses.values, P q)
    {op : Operation} (hop : ∀ q, op = .push q → P q) : ∀ q ∈ (op.apply s).addresses.values, P q := by
  cases op with
  | push r =>
    rw [Operation.apply, push]
    split
    · exact hs
    · intro q hq
      obtain ⟨e, he, rfl⟩ := List.mem_map.1 hq
      rcases Fields.mem_insert he with rfl | he
      · exact hop r rfl
      · exact hs _ (List.mem_map_of_mem he)
  | pop =>
    rw [Operation.apply]
    cases hpop : s.pop? with
    | none => exact hs
    | some s' =>
      obtain ⟨last, -, haddresses⟩ := pop?_eq_some_iff.1 hpop
      intro q hq
      rw [Option.getD_some, haddresses] at hq
      exact hs q (((Fields.erase_sublist last s.addresses).map Prod.snd).subset hq)
  | clear => exact List.forall_mem_nil P

/-- What holds of all references that are pushed holds of those in progress. -/
theorem forall_values_after {P : Reference → Prop} {ops : List Operation}
    (h : ∀ q, .push q ∈ ops → P q) : ∀ q ∈ (after ops).addresses.values, P q :=
  List.foldlRecOn (motive := fun s => ∀ q ∈ s.addresses.values, P q) ops Operation.apply
    (List.forall_mem_nil P) fun _ hs _ hop => forall_values_apply hs fun q hq => h q (hq ▸ hop)

/-- Whatever has been pushed, taken off and cleared: the halves of the stack are in step. A
reference is refused if and only if its subject is in the chain. Then there is one error, which
shows the chain with the subject at its end, and nothing changes. Otherwise the subject is added to
both halves, and taking it off again restores them. From an empty stack, and only from it, nothing
can be taken off. From another one the last subject of the chain is, in both halves. -/
theorem halves_in_step (ops : List Operation) :
    let s := after ops
    s.InStep ∧
    (∀ r : Reference,
      if r.subject.text ∈ s.chain then
        let chain := joined (s.chain ++ [r.subject.text])
        s.push r = ([⟨.error, .circularReference chain, "circular reference found", chain,
          some r.range⟩], s)
      else
        (s.push r).1 = [] ∧ (s.push r).2.chain = s.chain ++ [r.subject.text] ∧
          (∀ name, (s.push r).2.addresses.get? name =
            if name = r.subject.text then some r else s.addresses.get? name) ∧
          (s.push r).2.pop? = some s) ∧
    match s.pop? with
    | none => s.chain = []
    | some s' => ∃ last, s.chain = s'.chain ++ [last] ∧
        ∀ name, s'.addresses.get? name = if name = last then none else s.addresses.get? name := by
  intro s
  have hs : s.InStep := inStep_after ops
  refine ⟨hs, fun r => ?_, ?_⟩
  · split
    · next hmem => exact push_of_isActive (hs.isActive_iff.2 hmem)
    · next hmem =>
      have hidle : s.isActive r = false := by
        rwa [← Bool.not_eq_true, hs.isActive_iff]
      rw [push_of_not_isActive hidle]
      refine ⟨rfl, rfl, fun name => ?_, pop?_enter hidle⟩
      split
      · next hname => rw [hname, enter, Fields.get?_insert_self]
      · next hname => rw [enter, Fields.get?_insert_of_ne hname]
  · split
    · next hnone => exact (pop?_eq_none_iff s).1 hnone
    · next s' hsome =>
      obtain ⟨last, hchain, haddresses⟩ := pop?_eq_some_iff.1 hsome
      refine ⟨last, hchain, fun name => ?_⟩
      rw [haddresses, Fields.get?_erase hs.sorted]

/-- A reference that is refused is not what is taken off next. -/
example :
    let a : Reference := ⟨.localValue "a", default⟩
    let b : Reference := ⟨.localValue "b", default⟩
    after [.push a, .push b, .push a, .pop] = after [.push a] := by
  decide +kernel

end StaticConfig.CallStack

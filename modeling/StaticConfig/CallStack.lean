import StaticConfig.Reference

/-!
Chains of references whose resolution is in progress. A reference to a subject that is already in
the chain is circular. The texts of the subjects stand in the order in which resolution began, and
the references are found by these texts.
-/
namespace StaticConfig

structure CallStack where
  /-- The references in progress, by the texts of their subjects. -/
  addresses : Fields Reference
  /-- The texts of the subjects in progress, the outermost first. -/
  chain : List String
  deriving Inhabited, DecidableEq

namespace CallStack

def empty : CallStack := ⟨[], []⟩

def length (s : CallStack) : Nat := s.chain.length

def isEmpty (s : CallStack) : Bool := s.chain.isEmpty

def joined (names : List String) : String :=
  String.intercalate " -> " names

def text (s : CallStack) : String :=
  joined s.chain

/-- The reference leads back to a subject in progress. -/
def isActive (s : CallStack) (r : Reference) : Bool :=
  s.addresses.contains r.subject.text

def circular (s : CallStack) (r : Reference) : Diagnostic :=
  let chain := joined (s.chain ++ [r.subject.text])
  .errorAt (.circularReference chain) "circular reference found" chain r.range

/-- The stack with the reference in progress as well. -/
def enter (s : CallStack) (r : Reference) : CallStack :=
  ⟨s.addresses.insert r.subject.text r, s.chain ++ [r.subject.text]⟩

/-- Begins to resolve a reference. A circular one is reported and leaves the stack unchanged. -/
def push (s : CallStack) (r : Reference) : Diagnostics × CallStack :=
  if s.isActive r then ([s.circular r], s) else ([], s.enter r)

/-- Ends the resolution begun last, if there is one. -/
def pop? (s : CallStack) : Option CallStack :=
  s.chain.getLast?.map fun name => ⟨s.addresses.erase name, s.chain.dropLast⟩

/-- Nothing is in progress any more. -/
def clear (s : CallStack) : CallStack := { s with addresses := [], chain := [] }

theorem push_of_not_isActive {s : CallStack} {r : Reference} (h : s.isActive r = false) :
    s.push r = ([], s.enter r) := by
  simp [push, h]

theorem push_of_isActive {s : CallStack} {r : Reference} (h : s.isActive r = true) :
    s.push r = ([s.circular r], s) := by
  simp [push, h]

theorem isActive_enter (s : CallStack) (r q : Reference) :
    (s.enter r).isActive q = (q.subject.text == r.subject.text || s.isActive q) := by
  rw [isActive, enter, Fields.contains_insert]
  rfl

theorem pop?_enter {s : CallStack} {r : Reference} (h : s.isActive r = false) :
    (s.enter r).pop? = some s := by
  have hnone : s.addresses.get? r.subject.text = none := by
    simpa [isActive, Fields.contains] using h
  simp [enter, pop?, Fields.erase_insert hnone]

theorem pop?_eq_none_iff (s : CallStack) : s.pop? = none ↔ s.chain = [] := by
  simp [pop?]

end CallStack

end StaticConfig

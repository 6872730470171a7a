import StaticConfig.Value.Marks

/-!
Equality as the language's `==` sees it. Marks do not count, and there is no answer where an
unknown part could change it.
-/
namespace StaticConfig.Value

def equal? (a b : Value) : Option Bool :=
  let a := a.bare
  let b := b.bare
  if a.isNull || b.isNull then
    if a.isKnown && b.isKnown then some (a.isNull && b.isNull) else none
  else if !a.isWhollyKnown || !b.isWhollyKnown then none
  else if a.ty = b.ty then some (same a b)
  else some false

/-- The values are known to be equal. -/
def agrees (a b : Value) : Bool :=
  equal? a b == some true

end StaticConfig.Value

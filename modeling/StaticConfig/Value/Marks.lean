import StaticConfig.Value.Basic

/-!
The sensitive mark on values: adding it, taking it off the top or off every part, and asking
for it.
-/
namespace StaticConfig.Value

/-- Marks the value as sensitive. A marked value stays as it is. -/
def mark : Value → Value
  | sensitive v => sensitive v
  | v => sensitive v

def markIf (marked : Bool) (v : Value) : Value :=
  if marked then mark v else v

/-- The mark is at the top. -/
def isMarked : Value → Bool
  | sensitive _ => true
  | _ => false

/-- The value without a mark at the top. -/
def unmarked : Value → Value
  | sensitive v => v
  | v => v

mutual

/-- The mark is somewhere in the value. -/
def hasMark : Value → Bool
  | sensitive _ => true
  | list _ items => anyMark items
  | set _ items => anyMark items
  | tuple items => anyMark items
  | map _ entries => anyFieldMark entries
  | object attrs => anyFieldMark attrs
  | _ => false

def anyMark : List Value → Bool
  | [] => false
  | v :: vs => v.hasMark || anyMark vs

def anyFieldMark : List (String × Value) → Bool
  | [] => false
  | (_, v) :: rest => v.hasMark || anyFieldMark rest

end

mutual

/-- The value with every mark removed. Elements of a set that become equal are merged. -/
def bare : Value → Value
  | sensitive v => v.bare
  | list e items => list e (bareAll items)
  | set e items => setOf e (bareAll items)
  | tuple items => tuple (bareAll items)
  | map e entries => map e (bareFields entries)
  | object attrs => object (bareFields attrs)
  | v => v

def bareAll : List Value → List Value
  | [] => []
  | v :: vs => v.bare :: bareAll vs

def bareFields : List (String × Value) → List (String × Value)
  | [] => []
  | (k, v) :: rest => (k, v.bare) :: bareFields rest

end

theorem markIf_false (v : Value) : markIf false v = v := rfl

theorem isMarked_mark (v : Value) : (mark v).isMarked = true := by
  cases v <;> rfl

theorem unmarked_of_isMarked_eq_false {v : Value} (h : v.isMarked = false) : v.unmarked = v := by
  cases v <;> simp_all [isMarked, unmarked]

end StaticConfig.Value

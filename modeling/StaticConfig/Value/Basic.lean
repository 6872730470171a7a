import StaticConfig.Number
import StaticConfig.Ty.Basic

/-!
Configuration values. A null or unknown value knows the type it stands for, and a collection
the type of its elements. A value may carry the sensitive mark, at the top or at any value
inside it; marks do not stand directly inside each other.
-/
namespace StaticConfig

inductive Value where
  | null (ty : Ty)
  /-- Stands for some value of the type. -/
  | unknown (ty : Ty)
  | bool (b : Bool)
  | number (n : Number)
  | string (s : String)
  | list (elem : Ty) (items : List Value)
  | set (elem : Ty) (items : List Value)
  | map (elem : Ty) (entries : List (String × Value))
  | tuple (items : List Value)
  | object (attrs : List (String × Value))
  /-- A value that must not be shown. -/
  | sensitive (inner : Value)
  deriving Inhabited

namespace Value

/-- The unknown value of unknown type. -/
def dynamic : Value := unknown .dynamic

def nothing : Value := null .dynamic

def ofNat (n : Nat) : Value := number (Number.ofNat n)

def strings (items : List String) : Value :=
  list .string (items.map string)

mutual

def ty : Value → Ty
  | null t => t
  | unknown t => t
  | bool _ => .bool
  | number _ => .number
  | string _ => .string
  | list e _ => .list e
  | set e _ => .set e
  | map e _ => .map e
  | tuple items => .tuple (types items)
  | object attrs => .plainObject (fieldTypes attrs)
  | sensitive v => v.ty

def types : List Value → List Ty
  | [] => []
  | v :: vs => v.ty :: types vs

def fieldTypes : List (String × Value) → List (String × Ty)
  | [] => []
  | (k, v) :: rest => (k, v.ty) :: fieldTypes rest

end

def isNull : Value → Bool
  | null _ => true
  | sensitive v => v.isNull
  | _ => false

def isKnown : Value → Bool
  | unknown _ => false
  | sensitive v => v.isKnown
  | _ => true

mutual

/-- Neither the value nor anything inside it is unknown. -/
def isWhollyKnown : Value → Bool
  | unknown _ => false
  | sensitive v => v.isWhollyKnown
  | list _ items => allKnown items
  | set _ items => allKnown items
  | tuple items => allKnown items
  | map _ entries => allFieldsKnown entries
  | object attrs => allFieldsKnown attrs
  | _ => true

def allKnown : List Value → Bool
  | [] => true
  | v :: vs => v.isWhollyKnown && allKnown vs

def allFieldsKnown : List (String × Value) → Bool
  | [] => true
  | (_, v) :: rest => v.isWhollyKnown && allFieldsKnown rest

end

mutual

/-- Equality of contents, types and marks. Not-a-number differs from itself. -/
def same : Value → Value → Bool
  | null a, null b => a == b
  | unknown a, unknown b => a == b
  | bool a, bool b => a == b
  | number a, number b => a.eq b
  | string a, string b => a == b
  | list t as, list u bs => t == u && sameAll as bs
  | set t as, set u bs => t == u && sameAll as bs
  | map t as, map u bs => t == u && sameFields as bs
  | tuple as, tuple bs => sameAll as bs
  | object as, object bs => sameFields as bs
  | sensitive a, sensitive b => same a b
  | _, _ => false

def sameAll : List Value → List Value → Bool
  | [], [] => true
  | a :: as, b :: bs => same a b && sameAll as bs
  | _, _ => false

def sameFields : List (String × Value) → List (String × Value) → Bool
  | [], [] => true
  | (k, a) :: as, (l, b) :: bs => k == l && same a b && sameFields as bs
  | _, _ => false

end

/-- The items without those that equal an item of `kept` or an earlier one, after `kept`. -/
def distinctFrom (kept : List Value) : List Value → List Value
  | [] => kept
  | v :: vs =>
    if kept.any fun k => same k v then distinctFrom kept vs else distinctFrom (kept ++ [v]) vs

/-- The set of the items. Of equal items the first one stays. -/
def setOf (elem : Ty) (items : List Value) : Value :=
  set elem (distinctFrom [] items)

/-- The items of a list, set or tuple. -/
def items? : Value → Option (List Value)
  | list _ items => some items
  | set _ items => some items
  | tuple items => some items
  | _ => none

/-- The entries of a map or object. -/
def entries? : Value → Option (Fields Value)
  | map _ entries => some entries
  | object attrs => some attrs
  | _ => none

def isSequence (v : Value) : Bool := v.items?.isSome

def isMapping (v : Value) : Bool := v.entries?.isSome

/-- The items with their indices, counted from `start`. -/
def indexed (start : Nat) : List Value → List (Value × Value)
  | [] => []
  | v :: vs => (ofNat start, v) :: indexed (start + 1) vs

/-- Keys and values of a collection or structure: indices of a sequence, names of a mapping. -/
def elements? (v : Value) : Option (List (Value × Value)) :=
  match v.items?, v.entries? with
  | some items, _ => some (indexed 0 items)
  | none, some entries => some (entries.map fun e => (string e.1, e.2))
  | none, none => none

/-- Keys and values as iteration binds them. The elements of a set are their own keys. -/
def iterated? : Value → Option (List (Value × Value))
  | set _ items => some (items.map fun v => (v, v))
  | v => v.elements?

def string? : Value → Option String
  | string s => some s
  | _ => none

def number? : Value → Option Number
  | number n => some n
  | _ => none

def bool? : Value → Option Bool
  | bool b => some b
  | _ => none

end Value

end StaticConfig

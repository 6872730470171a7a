import StaticConfig.Fields

/-!
Types of configuration values. `dynamic` is the type of values whose type is not known, and as
a constraint it accepts a value of any type. An object type lists the attributes that may be
left out.
-/
namespace StaticConfig

inductive Ty where
  | dynamic
  | bool
  | number
  | string
  | list (elem : Ty)
  | set (elem : Ty)
  | map (elem : Ty)
  | tuple (elems : List Ty)
  | object (attrs : List (String × Ty)) (optional : Names)
  deriving Inhabited

namespace Ty

mutual

/-- Equality of types, optional attributes included. -/
def same : Ty → Ty → Bool
  | dynamic, dynamic => true
  | bool, bool => true
  | number, number => true
  | string, string => true
  | list a, list b => same a b
  | set a, set b => same a b
  | map a, map b => same a b
  | tuple as, tuple bs => sameAll as bs
  | object as os, object bs ps => sameFields as bs && os == ps
  | _, _ => false

def sameAll : List Ty → List Ty → Bool
  | [], [] => true
  | a :: as, b :: bs => same a b && sameAll as bs
  | _, _ => false

def sameFields : List (String × Ty) → List (String × Ty) → Bool
  | [], [] => true
  | (k, a) :: as, (l, b) :: bs => k == l && same a b && sameFields as bs
  | _, _ => false

end

mutual

theorem eq_of_same : ∀ {a b : Ty}, same a b = true → a = b
  | dynamic, b, h => by cases b <;> simp_all [same]
  | bool, b, h => by cases b <;> simp_all [same]
  | number, b, h => by cases b <;> simp_all [same]
  | string, b, h => by cases b <;> simp_all [same]
  | list a, b, h => by cases b <;> simp_all [same]; exact eq_of_same h
  | set a, b, h => by cases b <;> simp_all [same]; exact eq_of_same h
  | map a, b, h => by cases b <;> simp_all [same]; exact eq_of_same h
  | tuple as, b, h => by cases b <;> simp_all [same]; exact eq_of_sameAll h
  | object as os, b, h => by
    cases b <;> simp_all [same]
    exact eq_of_sameFields h.1

theorem eq_of_sameAll : ∀ {as bs : List Ty}, sameAll as bs = true → as = bs
  | [], bs, h => by cases bs <;> simp_all [sameAll]
  | a :: as, bs, h => by
    cases bs with
    | nil => simp [sameAll] at h
    | cons b bs =>
      simp only [sameAll, Bool.and_eq_true] at h
      rw [eq_of_same h.1, eq_of_sameAll h.2]

theorem eq_of_sameFields : ∀ {as bs : List (String × Ty)}, sameFields as bs = true → as = bs
  | [], bs, h => by cases bs <;> simp_all [sameFields]
  | (k, a) :: as, bs, h => by
    cases bs with
    | nil => simp [sameFields] at h
    | cons e bs =>
      obtain ⟨l, b⟩ := e
      simp only [sameFields, Bool.and_eq_true, beq_iff_eq] at h
      rw [h.1.1, eq_of_same h.1.2, eq_of_sameFields h.2]

end

mutual

theorem same_self : ∀ a : Ty, same a a = true
  | dynamic | bool | number | string => rfl
  | list a | set a | map a => by simpa [same] using same_self a
  | tuple as => by simpa [same] using sameAll_self as
  | object as os => by simpa [same] using sameFields_self as

theorem sameAll_self : ∀ as : List Ty, sameAll as as = true
  | [] => rfl
  | a :: as => by simp [sameAll, same_self a, sameAll_self as]

theorem sameFields_self : ∀ as : List (String × Ty), sameFields as as = true
  | [] => rfl
  | (k, a) :: as => by simp [sameFields, same_self a, sameFields_self as]

end

theorem same_iff {a b : Ty} : same a b = true ↔ a = b :=
  ⟨eq_of_same, fun h => h ▸ same_self a⟩

instance : DecidableEq Ty := fun a b =>
  decidable_of_iff (same a b = true) same_iff

/-- An object type whose attributes are all required. -/
def plainObject (attrs : List (String × Ty)) : Ty :=
  object attrs []

def isPrimitive : Ty → Bool
  | bool | number | string => true
  | _ => false

def isCollection : Ty → Bool
  | list _ | set _ | map _ => true
  | _ => false

def isSequence : Ty → Bool
  | list _ | set _ | tuple _ => true
  | _ => false

def isMapping : Ty → Bool
  | map _ | object _ _ => true
  | _ => false

def isObject : Ty → Bool
  | object _ _ => true
  | _ => false

def elementType? : Ty → Option Ty
  | list e | set e | map e => some e
  | _ => none

mutual

/-- The type is `dynamic` or contains it. -/
def hasDynamic : Ty → Bool
  | dynamic => true
  | bool | number | string => false
  | list e | set e | map e => e.hasDynamic
  | tuple elems => anyDynamic elems
  | object attrs _ => anyFieldDynamic attrs

def anyDynamic : List Ty → Bool
  | [] => false
  | t :: ts => t.hasDynamic || anyDynamic ts

def anyFieldDynamic : List (String × Ty) → Bool
  | [] => false
  | (_, t) :: rest => t.hasDynamic || anyFieldDynamic rest

end

mutual

/-- The same type with all attributes required, at every depth. -/
def allRequired : Ty → Ty
  | list e => list e.allRequired
  | set e => set e.allRequired
  | map e => map e.allRequired
  | tuple elems => tuple (allRequiredList elems)
  | object attrs _ => plainObject (allRequiredFields attrs)
  | t => t

def allRequiredList : List Ty → List Ty
  | [] => []
  | t :: ts => t.allRequired :: allRequiredList ts

def allRequiredFields : List (String × Ty) → List (String × Ty)
  | [] => []
  | (k, t) :: rest => (k, t.allRequired) :: allRequiredFields rest

end

/-- The name of a type in messages. -/
def name : Ty → String
  | dynamic => "dynamic"
  | bool => "bool"
  | number => "number"
  | string => "string"
  | list e => "list of " ++ e.name
  | set e => "set of " ++ e.name
  | map e => "map of " ++ e.name
  | tuple _ => "tuple"
  | object _ _ => "object"

end Ty

end StaticConfig

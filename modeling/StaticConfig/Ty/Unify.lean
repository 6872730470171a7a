import StaticConfig.Ty.Basic

/-!
A single type that values of several types convert to: the type itself when all are equal,
`string` for different primitive types, a list for sequences, an object for objects with the
same attributes, and a map for other mappings. Any type goes with `dynamic`.
-/
namespace StaticConfig.Ty

mutual

/-- Number of type constructors. -/
def size : Ty → Nat
  | list e | set e | map e => e.size + 1
  | tuple elems => sizeAll elems + 1
  | object attrs _ => sizeFields attrs + 1
  | _ => 1

def sizeAll : List Ty → Nat
  | [] => 0
  | t :: ts => t.size + sizeAll ts

def sizeFields : List (String × Ty) → Nat
  | [] => 0
  | (_, t) :: rest => t.size + sizeFields rest

end

/-- The types directly inside a collection or structural type. -/
def parts : Ty → List Ty
  | list e | set e | map e => [e]
  | tuple elems => elems
  | object attrs _ => Fields.values attrs
  | _ => []

/-- The type of an attribute of an object type. -/
def attr? (name : String) : Ty → Option Ty
  | object attrs _ => Fields.get? name attrs
  | _ => none

def attrNames : Ty → List String
  | object attrs _ => Fields.keys attrs
  | _ => []

theorem sizeFields_eq (attrs : List (String × Ty)) :
    sizeFields attrs = sizeAll (Fields.values attrs) := by
  induction attrs with
  | nil => rfl
  | cons e rest ih => simp [sizeFields, sizeAll, Fields.values, ih]

theorem size_pos (t : Ty) : 0 < t.size := by
  cases t <;> simp [size]

theorem sizeAll_append (as bs : List Ty) : sizeAll (as ++ bs) = sizeAll as + sizeAll bs := by
  induction as with
  | nil => simp [sizeAll]
  | cons a as ih => simp [sizeAll, ih, Nat.add_assoc]

theorem sizeAll_parts_lt (t : Ty) : sizeAll t.parts < t.size := by
  cases t <;> simp [parts, size, sizeAll, sizeFields_eq]

theorem sizeAll_flatMap_parts_le (ts : List Ty) : sizeAll (ts.flatMap parts) ≤ sizeAll ts := by
  induction ts with
  | nil => simp [sizeAll]
  | cons t ts ih =>
    have h := sizeAll_parts_lt t
    simp only [List.flatMap_cons, sizeAll_append, sizeAll]
    omega

theorem sizeAll_flatMap_parts_lt (t : Ty) (ts : List Ty) :
    sizeAll ((t :: ts).flatMap parts) < sizeAll (t :: ts) := by
  have h := sizeAll_parts_lt t
  have hs := sizeAll_flatMap_parts_le ts
  simp only [List.flatMap_cons, sizeAll_append, sizeAll]
  omega

theorem size_lt_of_attr? {name : String} {t a : Ty} (h : attr? name t = some a) :
    a.size < t.size := by
  cases t with
  | object attrs opt =>
    simp only [attr?] at h
    have : a.size ≤ sizeFields attrs := by
      induction attrs with
      | nil => simp [Fields.get?] at h
      | cons e rest ih =>
        obtain ⟨k, b⟩ := e
        simp only [Fields.get?] at h
        by_cases hk : k = name
        · simp [hk] at h; subst h; simp [sizeFields]
        · simp only [hk, if_false] at h
          have := ih h
          simp only [sizeFields]; omega
    simp only [size]; omega
  | _ => simp [attr?] at h

theorem sizeAll_filterMap_attr?_le (name : String) (ts : List Ty) :
    sizeAll (ts.filterMap (attr? name)) ≤ sizeAll ts := by
  induction ts with
  | nil => simp [sizeAll]
  | cons t ts ih =>
    cases h : attr? name t with
    | none => simp only [List.filterMap_cons, h, sizeAll]; omega
    | some a =>
      have := size_lt_of_attr? h
      simp only [List.filterMap_cons, h, sizeAll]
      omega

theorem sizeAll_filterMap_attr?_lt (name : String) (t : Ty) (ts : List Ty) :
    sizeAll ((t :: ts).filterMap (attr? name)) < sizeAll (t :: ts) := by
  have hs := sizeAll_filterMap_attr?_le name ts
  have hp := size_pos t
  cases h : attr? name t with
  | none => simp only [List.filterMap_cons, h, sizeAll]; omega
  | some a =>
    have := size_lt_of_attr? h
    simp only [List.filterMap_cons, h, sizeAll]
    omega

/-- A single type that values of all the types convert to. -/
def unify : List Ty → Option Ty
  | [] => some dynamic
  | first :: rest =>
    let all := first :: rest
    if all.contains dynamic then some dynamic
    else if all.all fun t => t == first then some first
    else if all.all isPrimitive then some string
    else if all.all isSequence then (unify ((first :: rest).flatMap parts)).map list
    else if all.all isObject && all.all fun t => t.attrNames == first.attrNames then
      (first.attrNames.mapM fun name =>
        (unify ((first :: rest).filterMap (attr? name))).map fun t => (name, t)).map plainObject
    else if all.all isMapping then (unify ((first :: rest).flatMap parts)).map map
    else none
termination_by ts => sizeAll ts
decreasing_by
  · exact sizeAll_flatMap_parts_lt first rest
  · exact sizeAll_filterMap_attr?_lt name first rest
  · exact sizeAll_flatMap_parts_lt first rest

end StaticConfig.Ty

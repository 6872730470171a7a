import StaticConfig.Value.Marks

/-!
Default values for the optional attributes of object types, at any depth of a type. They are
filled in before a value is converted to the type.
-/
namespace StaticConfig

structure Defaults where
  ty : Ty
  /-- Default values by attribute. -/
  defaults : List (String × Value)
  /-- What is filled in deeper: by attribute of an object, by index of a tuple, and under the
  empty name for the elements of a collection. -/
  children : List (String × Defaults)
  deriving Inhabited

namespace Defaults

/-- The name under which the elements of a collection have their defaults. -/
def elementKey : String := ""

/-- Adds the defaults of attributes that are missing or null. -/
def fillMissing : List (String × Value) → Fields Value → Fields Value
  | [], attrs => attrs
  | (name, v) :: rest, attrs =>
    match Fields.get? name attrs with
    | some old =>
      if old.isNull then fillMissing rest (attrs.insert name v) else fillMissing rest attrs
    | none => fillMissing rest (attrs.insert name v)

mutual

/-- The value with defaults filled in. Null and unknown values stay as they are. -/
def apply : Defaults → Value → Value
  | ⟨ty, defaults, children⟩, v =>
    let inner := v.unmarked
    let filled :=
      if inner.isNull || !inner.isKnown then inner
      else
        let hasElement := (children.map Prod.fst).contains elementKey
        match ty with
        | .object _ _ =>
          match inner.entries? with
          | some attrs => .object (applyFields children (fillMissing defaults attrs))
          | none => inner
        | .list _ =>
          match inner.items? with
          | some items =>
            if hasElement then .tuple (items.map fun v => applyAt elementKey children v)
            else inner
          | none => inner
        | .set _ =>
          match inner.items? with
          | some items =>
            if hasElement then .tuple (items.map fun v => applyAt elementKey children v)
            else inner
          | none => inner
        | .map _ =>
          match inner.entries? with
          | some entries =>
            if hasElement then
              .object (entries.map fun e => (e.1, applyAt elementKey children e.2))
            else inner
          | none => inner
        | .tuple _ =>
          match inner with
          | .tuple items => .tuple (items.mapIdx fun i v => applyAt (toString i) children v)
          | .list _ items => .tuple (items.mapIdx fun i v => applyAt (toString i) children v)
          | inner => inner
        | _ => inner
    filled.markIf v.isMarked

/-- The value with the defaults of the child of the name filled in, if there is such a child. -/
def applyAt (name : String) : List (String × Defaults) → Value → Value
  | [], v => v
  | (k, d) :: rest, v => if k = name then d.apply v else applyAt name rest v

def applyFields : List (String × Defaults) → Fields Value → Fields Value
  | [], attrs => attrs
  | (name, d) :: rest, attrs =>
    match Fields.get? name attrs with
    | some v => applyFields rest (attrs.insert name (d.apply v))
    | none => applyFields rest attrs

end

end Defaults

end StaticConfig

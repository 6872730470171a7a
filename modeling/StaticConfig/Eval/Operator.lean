import StaticConfig.Eval.Access
import StaticConfig.Value.Equal

/-!
Operators on values without marks.
-/
namespace StaticConfig.Operator

/-- The operand converted to the type that the operator works on. -/
def operand (v : Value) (ty : Ty) (span : Span) (side : Side) : Evaluated :=
  if v.isNull then .error ⟨span, .nullOperand side ty⟩
  else match v.convert ty with
    | .ok v => .ok v
    | .error e => .error ⟨span, .wrongOperand side e⟩

def unary (op : UnaryOp) (v : Value) (span : Span) : Evaluated :=
  match op with
  | .neg => do
    let v ← operand v .number span .sole
    match v.number? with
    | some n => .ok (.number n.neg)
    | none => .ok (.unknown .number)
  | .not => do
    let v ← operand v .bool span .sole
    match v.bool? with
    | some b => .ok (.bool !b)
    | none => .ok (.unknown .bool)

/-- Conjunction, where `false` decides even next to an unknown operand. -/
def both : Option Bool → Option Bool → Value
  | some false, _ => .bool false
  | _, some false => .bool false
  | some true, some true => .bool true
  | _, _ => .unknown .bool

/-- Disjunction, where `true` decides even next to an unknown operand. -/
def either : Option Bool → Option Bool → Value
  | some true, _ => .bool true
  | _, some true => .bool true
  | some false, some false => .bool false
  | _, _ => .unknown .bool

def isComparison : BinaryOp → Bool
  | .lt | .le | .gt | .ge => true
  | _ => false

/-- An operator on numbers. -/
def numeric (op : BinaryOp) (a b : Number) (span : Span) : Evaluated :=
  let computed (r : Except NumberError Number) : Evaluated :=
    match r with
    | .ok n => .ok (.number n)
    | .error e => .error ⟨span, .failedOperation e⟩
  match op with
  | .add => .ok (.number (a.add b))
  | .sub => .ok (.number (a.sub b))
  | .mul => .ok (.number (a.mul b))
  | .div => computed (a.div b)
  | .mod => computed (a.mod b)
  | .lt => .ok (.bool (a.lt b))
  | .le => .ok (.bool (a.le b))
  | .gt => .ok (.bool (b.lt a))
  | _ => .ok (.bool (b.le a))

/-- The operator on two values, given the ranges of both operands and of the whole. -/
def binary (op : BinaryOp) (l r : Value) (lspan rspan span : Span) : Evaluated :=
  match op with
  | .eq => .ok (match Value.equal? l r with | some b => .bool b | none => .unknown .bool)
  | .ne => .ok (match Value.equal? l r with | some b => .bool !b | none => .unknown .bool)
  | .and => do
    let l ← operand l .bool lspan .left
    let r ← operand r .bool rspan .right
    .ok (both l.bool? r.bool?)
  | .or => do
    let l ← operand l .bool lspan .left
    let r ← operand r .bool rspan .right
    .ok (either l.bool? r.bool?)
  | op => do
    let l ← operand l .number lspan .left
    let r ← operand r .number rspan .right
    match l.number?, r.number? with
    | some a, some b => numeric op a b span
    | _, _ => .ok (.unknown (if isComparison op then .bool else .number))

end StaticConfig.Operator

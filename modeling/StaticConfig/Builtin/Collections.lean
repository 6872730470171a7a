import StaticConfig.Builtin.Args
import StaticConfig.Value.Equal

/-!
Functions on sequences and mappings.
-/
namespace StaticConfig.Builtin.Collections

open Builtin

/-- A sequence of the same kind, where a set becomes a list. -/
def like (model : Value) (items : List Value) : Value :=
  match model with
  | .list ty _ => .list ty items
  | .set ty _ => .list ty items
  | _ => .tuple items

def length (v : Value) : CallResult := do
  notNull v
  if !v.isKnown then .ok (.unknown .number)
  else match v, v.items?, v.entries? with
    | .string s, _, _ => .ok (.ofNat s.length)
    | _, some items, _ => .ok (.ofNat items.length)
    | _, none, some entries => .ok (.ofNat entries.length)
    | _, none, none => .error .noLength

/-- The items of all the sequences, of which the first has the given index. -/
def joined (index : Nat) : List Value → Except CallError (List Value)
  | [] => .ok []
  | v :: vs =>
    match asSequence v with
    | .ok items => do
      let rest ← joined (index + 1) vs
      .ok (items ++ rest)
    | .error _ => .error (.notJoinable v.ty index)

def concat (args : List Value) : CallResult := do
  .ok (listOrTuple (← joined 0 args))

def contains (v item : Value) : CallResult := do
  let items ← asSequence v
  .ok (.bool (items.any fun i => Value.agrees i item))

def index (v item : Value) : CallResult := do
  let items ← asSequence v
  match items.findIdx? fun i => Value.agrees i item with
  | some i => .ok (.ofNat i)
  | none => .error .noSuchItem

def keys (v : Value) : CallResult := do
  let entries ← asMapping v
  .ok (.strings entries.keys)

def values (v : Value) : CallResult := do
  let entries ← asMapping v
  match v with
  | .map ty _ => .ok (.list ty entries.values)
  | _ => .ok (.tuple entries.values)

def lookup (v key : Value) (default : Option Value) : CallResult := do
  let entries ← asMapping v
  let key ← asString key
  match entries.get? key, default with
  | some v, _ => .ok v
  | none, some v => .ok v
  | none, none => .error (.noSuchKey key)

/-- The entries of all mappings that are not null. Of equal keys the last one counts. -/
def mergedInto (acc : Fields Value) : List Value → Except CallError (Fields Value)
  | [] => .ok acc
  | v :: vs =>
    if v.isNull then mergedInto acc vs
    else do
      let entries ← asMapping v
      mergedInto (Fields.insertAll entries acc) vs

def isMap : Value → Bool
  | .map _ _ => true
  | _ => false

/-- A map of the entries if their values have a type in common. -/
def mapOf? (entries : Fields Value) : Option Value := do
  let ty ← Ty.unify (Value.types entries.values)
  let vs ← convertedAll ty entries.values
  some (.map ty (entries.keys.zip vs))

def merge (args : List Value) : CallResult := do
  let entries ← mergedInto [] args
  let allMaps := args.all fun v => v.isNull || isMap v
  if allMaps && !entries.isEmpty then .ok ((mapOf? entries).getD (.object entries))
  else .ok (.object entries)

/-- The first value that is neither null nor, once converted, the empty text. -/
def firstFilled (ty : Ty) : List Value → CallResult
  | [] => .error .allBlank
  | v :: vs =>
    if v.isNull then firstFilled ty vs
    else do
      let v ← converted v ty
      if v.string? = some "" then firstFilled ty vs else .ok v

def coalesce (args : List Value) : CallResult :=
  match Ty.unify (Value.types args) with
  | some ty => firstFilled ty args
  | none => .error .mixedArguments

def coalescelist : List Value → CallResult
  | [] => .error .allNull
  | v :: vs =>
    if v.isNull then coalescelist vs
    else do
      let items ← asSequence v
      if items.isEmpty then coalescelist vs else .ok v

/-- The texts among the items that are neither null nor empty. -/
def filled : List Value → Except CallError (List String)
  | [] => .ok []
  | v :: vs =>
    if v.isNull then filled vs
    else do
      let s ← asString v
      let rest ← filled vs
      .ok (if s.isEmpty then rest else s :: rest)

def compact (v : Value) : CallResult := do
  .ok (.strings (← filled (← asSequence v)))

/-- The items without those that agree with an earlier one, after `kept`. -/
def withoutRepeats (kept : List Value) : List Value → List Value
  | [] => kept
  | v :: vs =>
    if kept.any fun k => Value.agrees k v then withoutRepeats kept vs
    else withoutRepeats (kept ++ [v]) vs

def distinct (v : Value) : CallResult := do
  .ok (like v (withoutRepeats [] (← asSequence v)))

def element (v index : Value) : CallResult := do
  let items ← asSequence v
  let i ← asWhole index
  if items.isEmpty then .error .emptyElements
  else if i < 0 then .error .negativeElement
  else .ok (items[i.toInt.toNat % items.length]?.getD .dynamic)

mutual

/-- The parts that are no sequences themselves, at any depth. -/
def leaves : Value → Except CallError (List Value)
  | .list _ items => leavesOfAll items
  | .set _ items => leavesOfAll items
  | .tuple items => leavesOfAll items
  | .sensitive _ => .error .markedElement
  | v => .ok [v]

def leavesOfAll : List Value → Except CallError (List Value)
  | [] => .ok []
  | v :: vs => do
    let first ← leaves v
    let rest ← leavesOfAll vs
    .ok (first ++ rest)

end

def flatten (v : Value) : CallResult := do
  .ok (listOrTuple (← leavesOfAll (← asSequence v)))

def rangeLimit : Nat := 1024

/-- The numbers from `n` on in steps, before the limit. -/
def rangeFrom (limit step : Float) : Nat → Float → Except CallError (List Value)
  | 0, n =>
    if Double.ofInt 0 < step && n < limit || step < Double.ofInt 0 && limit < n then
      .error (.rangeTooLong rangeLimit)
    else .ok []
  | fuel + 1, n =>
    if Double.ofInt 0 < step && n < limit || step < Double.ofInt 0 && limit < n then do
      let rest ← rangeFrom limit step fuel (n + step)
      .ok (.number (rangeItem n) :: rest)
    else .ok []
where
  /-- A whole number stays exact as far as 64 bits go. -/
  rangeItem (n : Float) : Number :=
    match Double.toInt? n with
    | some i => .int (Int64.ofInt (max (-(Int.pow 2 63)) (min i (Int.pow 2 63 - 1))))
    | none => Number.ofFloat n

def rangeBetween (start limit step : Float) : CallResult :=
  let zero := Double.ofInt 0
  if step == zero then .error .zeroStep
  else if step < zero && start < limit || zero < step && limit < start then .error .stepDirection
  else (rangeFrom limit step rangeLimit start).map (.list .number)

def numbers : List Value → Except CallError (List Float)
  | [] => .ok []
  | v :: vs => do
    let n ← asNumber v
    let rest ← numbers vs
    .ok (n.toFloat :: rest)

def range (args : List Value) : CallResult := do
  match ← numbers args with
  | [limit] => rangeBetween (Double.ofInt 0) limit (Double.ofInt 1)
  | [start, limit] => rangeBetween start limit (Double.ofInt (if start ≤ limit then 1 else -1))
  | [start, limit, step] => rangeBetween start limit step
  | _ => .error .rangeArity

def reverse (v : Value) : CallResult := do
  .ok (like v (← asSequence v).reverse)

def slice (v start stop : Value) : CallResult := do
  let items ← asSequence v
  let start ← asWhole start
  let stop ← asWhole stop
  if start < 0 then .error .negativeStart
  else if stop < 0 ∨ items.length < stop.toInt.toNat then .error .endBeyondLength
  else if stop < start then .error .startBeyondEnd
  else .ok (like v ((items.take stop.toInt.toNat).drop start.toInt.toNat))

/-- The items as texts, none of them null. The first item has the given index. -/
def sortable (index : Nat) : List Value → Except CallError (List String)
  | [] => .ok []
  | v :: vs =>
    if v.isNull then .error (.nullSorted index)
    else do
      let s ← asString v
      let rest ← sortable (index + 1) vs
      .ok (s :: rest)

def sort (v : Value) : CallResult := do
  let texts ← sortable 0 (← asSequence v)
  .ok (.strings (texts.mergeSort fun a b => decide (a ≤ b)))

def zipped (entries : Fields Value) : List Value → List Value → Except CallError (Fields Value)
  | k :: ks, v :: vs => do
    let key ← asString k
    zipped (entries.insert key v) ks vs
  | _, _ => .ok entries

def zipmap (keys values : Value) : CallResult := do
  let ks ← asSequence keys
  let vs ← asSequence values
  if ks.length ≠ vs.length then .error (.keyCount ks.length vs.length)
  else
    let entries ← zipped [] ks vs
    match values with
    | .list ty _ => .ok (.map ty entries)
    | .set ty _ => .ok (.map ty entries)
    | _ => .ok (.object entries)

def functions : List (String × Builtin) := [
  ("coalesce", variadic 1 .dynamic coalesce),
  ("coalescelist", variadic 1 .dynamic coalescelist),
  ("compact", unary (.list .string) compact),
  ("concat", variadic 1 .dynamic concat),
  ("contains", binary .bool contains),
  ("distinct", unary .dynamic distinct),
  ("element", binary .dynamic element),
  ("flatten", unary .dynamic flatten),
  ("index", binary .number index),
  ("keys", unary (.list .string) keys),
  ("length", (unary .number length).withUnknown),
  ("lookup", ofRun 2 (some 3) .dynamic fun args =>
    match args with
    | v :: key :: rest => lookup v key rest.head?
    | args => .error (.tooFew 2 args.length)),
  ("merge", variadic 0 .dynamic merge),
  ("range", ofRun 1 (some 3) (.list .number) range),
  ("reverse", unary .dynamic reverse),
  ("slice", ternary .dynamic slice),
  ("sort", unary (.list .string) sort),
  ("values", unary .dynamic values),
  ("zipmap", binary .dynamic zipmap)]

end StaticConfig.Builtin.Collections

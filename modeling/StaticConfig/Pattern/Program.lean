import StaticConfig.Pattern.Basic

/-!
Patterns as programs. The code of a pattern stands at consecutive places, is entered at the
first of them, and goes on at a given place when the pattern has matched.
-/
namespace StaticConfig

inductive Instr where
  | one (cls : CharClass) (next : Nat)
  | look (l : Look) (next : Nat)
  /-- Goes on at either place and prefers the first. -/
  | split (first second : Nat)
  /-- Remembers where in the text it is reached. -/
  | save (slot : Nat) (next : Nat)
  | goto (next : Nat)
  | accept
  deriving Inhabited

namespace Pattern

/-- Two slots hold where a group begins and ends; the slots 0 and 1 are those of the match. -/
def startSlot (index : Nat) : Nat := 2 * index

def stopSlot (index : Nat) : Nat := 2 * index + 1

mutual

/-- The number of instructions. -/
def codeSize : Pattern → Nat
  | empty => 1
  | one _ => 1
  | look _ => 1
  | group none p => p.codeSize
  | group (some _) p => p.codeSize + 2
  | concat ps => 1 + sumSize ps
  | alt ps => 1 + choiceSize ps
  | times p least most _ =>
    match most with
    | some most => 1 + least * p.codeSize + (most - least) * (p.codeSize + 1)
    | none =>
      match least with
      | 0 => p.codeSize + 2
      | n + 1 => (n + 1) * p.codeSize + 1

def sumSize : List Pattern → Nat
  | [] => 0
  | p :: ps => p.codeSize + sumSize ps

def choiceSize : List Pattern → Nat
  | [] => 0
  | p :: ps => 1 + p.codeSize + choiceSize ps

end

/-- Goes to `body` or on to `next`; a greedy choice prefers the body. -/
def choose (greedy : Bool) (body next : Nat) : Instr :=
  if greedy then .split body next else .split next body

/-- Copies of the same code, each entered from the one before. The last one goes on at
`next`. -/
def copies (size : Nat) (code : Nat → Nat → List Instr) : Nat → Nat → Nat → List Instr
  | 0, _, _ => []
  | 1, start, next => code start next
  | n + 2, start, next =>
    code start (start + size) ++ copies size code (n + 1) (start + size) next

/-- Copies of which each may be left out together with those after it. -/
def optionalCopies (greedy : Bool) (size : Nat) (code : Nat → Nat → List Instr) :
    Nat → Nat → Nat → List Instr
  | 0, _, _ => []
  | n + 1, start, next =>
    let after := if n = 0 then next else start + 1 + size
    choose greedy (start + 1) next ::
      (code (start + 1) after ++ optionalCopies greedy size code n after next)

/-- Code for a repetition. A body that may match nothing is left after such a round. -/
def timesCode (size : Nat) (mayBeEmpty : Bool) (code : Nat → Nat → List Instr) (least : Nat)
    (most : Option Nat) (greedy : Bool) (start next : Nat) : List Instr :=
  match most with
  | some most =>
    let rest := start + 1 + least * size
    let entry := if most = least then next else rest
    .goto (if least = 0 then entry else start + 1) ::
      (copies size code least (start + 1) entry
        ++ optionalCopies greedy size code (most - least) rest next)
  | none =>
    match least with
    | 0 =>
      if mayBeEmpty then
        -- A round that matched nothing may not be preferred to going on.
        let again := start + 1 + size
        choose greedy (start + 1) next :: (code (start + 1) again
          ++ [choose greedy (start + 1) next])
      else choose greedy (start + 1) next :: (code (start + 1) start ++ [.goto next])
    | n + 1 =>
      let again := start + (n + 1) * size
      copies size code (n + 1) start again ++ [choose greedy (start + n * size) next]

mutual

/-- The code of a pattern at the places from `start` on. -/
def codeAt : Pattern → Nat → Nat → List Instr
  | empty, _, next => [.goto next]
  | one cls, _, next => [.one cls next]
  | look l, _, next => [.look l next]
  | group none p, start, next => p.codeAt start next
  | group (some index) p, start, next =>
    let stop := start + 1 + p.codeSize
    .save (startSlot index) (start + 1) ::
      (p.codeAt (start + 1) stop ++ [.save (stopSlot index) next])
  | concat ps, start, next =>
    .goto (if ps.isEmpty then next else start + 1) :: concatCode ps (start + 1) next
  | alt ps, start, next =>
    .goto (start + 1) :: choiceCode ps (start + 1) next
  | times p least most greedy, start, next =>
    timesCode p.codeSize (p.minLength == 0) p.codeAt least most greedy start next

def concatCode : List Pattern → Nat → Nat → List Instr
  | [], _, _ => []
  | p :: ps, start, next =>
    let after := start + p.codeSize
    p.codeAt start (if ps.isEmpty then next else after) ++ concatCode ps after next

def choiceCode : List Pattern → Nat → Nat → List Instr
  | [], _, _ => []
  | p :: ps, start, next =>
    let after := start + 1 + p.codeSize
    (if ps.isEmpty then .goto (start + 1) else .split (start + 1) after) ::
      (p.codeAt (start + 1) next ++ choiceCode ps after next)

end

/-- The program of a pattern. It saves where the match begins and ends. -/
def code (p : Pattern) : List Instr :=
  .save (startSlot 0) 1 :: (p.codeAt 1 (1 + p.codeSize) ++ [.save (stopSlot 0) (2 + p.codeSize),
    .accept])

end Pattern

end StaticConfig

import StaticConfig.Pattern.CharClass

/-!
Patterns: descriptions of the texts to look for. Of several ways to match, alternatives prefer
the earlier one, greedy repetitions prefer more rounds, and lazy ones fewer.
-/
namespace StaticConfig

/-- Conditions on the place between two characters. -/
inductive Look where
  | textStart
  | textEnd
  | lineStart
  | lineEnd
  /-- Line ends may also be a carriage return, or one before a newline. -/
  | anyLineStart
  | anyLineEnd
  | wordEdge (ascii : Bool)
  | notWordEdge (ascii : Bool)
  | wordStart (ascii : Bool)
  | wordEnd (ascii : Bool)
  | wordStartHalf (ascii : Bool)
  | wordEndHalf (ascii : Bool)
  deriving DecidableEq, Inhabited

namespace Look

def isWordAt (ascii : Bool) (c : Option Char) : Bool :=
  c.any fun c => if ascii then CharClass.asciiWord.mem c else CharClass.isWord c

/-- The condition between the character before the place and the one after it. -/
def holds (before after : Option Char) : Look → Bool
  | textStart => before.isNone
  | textEnd => after.isNone
  | lineStart => before.all (· == '\n')
  | lineEnd => after.all (· == '\n')
  | anyLineStart =>
    match before with
    | none => true
    | some c => c == '\n' || c == '\r' && after != some '\n'
  | anyLineEnd =>
    match after with
    | none => true
    | some c => c == '\r' || c == '\n' && before != some '\r'
  | wordEdge ascii => isWordAt ascii before != isWordAt ascii after
  | notWordEdge ascii => isWordAt ascii before == isWordAt ascii after
  | wordStart ascii => !isWordAt ascii before && isWordAt ascii after
  | wordEnd ascii => isWordAt ascii before && !isWordAt ascii after
  | wordStartHalf ascii => !isWordAt ascii before
  | wordEndHalf ascii => !isWordAt ascii after

end Look

inductive Pattern where
  | empty
  | one (cls : CharClass)
  | look (l : Look)
  /-- Brackets; those that capture have an index from 1. -/
  | group (index : Option Nat) (inner : Pattern)
  | concat (parts : List Pattern)
  | alt (choices : List Pattern)
  | times (inner : Pattern) (least : Nat) (most : Option Nat) (greedy : Bool)
  deriving Inhabited

namespace Pattern

/-- The concatenation of the parts. -/
def ofParts : List Pattern → Pattern
  | [] => empty
  | [p] => p
  | ps => concat ps

def ofChoices : List Pattern → Pattern
  | [p] => p
  | ps => alt ps

/-- Repetition. No round at all leaves nothing of what is repeated. -/
def repeated (inner : Pattern) (least : Nat) (most : Option Nat) (greedy : Bool) : Pattern :=
  if most = some 0 then empty
  else if least = 1 ∧ most = some 1 then inner
  else times inner least most greedy

mutual

/-- The least number of characters of a match. -/
def minLength : Pattern → Nat
  | empty => 0
  | one _ => 1
  | look _ => 0
  | group _ p => p.minLength
  | concat ps => sumLength ps
  | alt ps => leastLength ps
  | times p least _ _ => least * p.minLength

def sumLength : List Pattern → Nat
  | [] => 0
  | p :: ps => p.minLength + sumLength ps

def leastLength : List Pattern → Nat
  | [] => 0
  | [p] => p.minLength
  | p :: ps => min p.minLength (leastLength ps)

end

mutual

/-- How deep the parts of the pattern are nested. -/
def depth : Pattern → Nat
  | group _ p => p.depth + 1
  | concat ps => maxDepth ps + 1
  | alt ps => maxDepth ps + 1
  | times p _ _ _ => p.depth + 1
  | _ => 0

def maxDepth : List Pattern → Nat
  | [] => 0
  | p :: ps => max p.depth (maxDepth ps)

end

mutual

/-- The greatest index of a capturing group. -/
def groupCount : Pattern → Nat
  | group index p => max (index.getD 0) p.groupCount
  | concat ps => maxCount ps
  | alt ps => maxCount ps
  | times p _ _ _ => p.groupCount
  | _ => 0

def maxCount : List Pattern → Nat
  | [] => 0
  | p :: ps => max p.groupCount (maxCount ps)

end

end Pattern

end StaticConfig

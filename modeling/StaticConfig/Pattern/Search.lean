import StaticConfig.Pattern.Program
import StaticConfig.Pattern.Reader

/-!
Matches of a pattern in a text: the leftmost match, and of those that begin there the one the
pattern prefers. All ways to match advance through the text together, in order of preference;
of two ways that reach an instruction at the same place only the preferred one is followed.
-/
namespace StaticConfig.Pattern

/-- Where the groups begin and end, so far as they have been reached. -/
abbrev Slots := List (Option Nat)

structure Thread where
  place : Nat
  slots : Slots
  deriving Inhabited

/-- A place between two characters of the text. -/
structure Place where
  before : Option Char
  after : Option Char
  offset : Nat

/-- Follows the threads, up to instructions that need a character or accept. Gives the threads
that arrive, after those of `arrived` and in reverse, and the instructions seen. -/
def follow (code : Array Instr) (here : Place) :
    Nat → List Thread → Array Bool → List Thread → List Thread × Array Bool
  | 0, _, seen, arrived => (arrived, seen)
  | _ + 1, [], seen, arrived => (arrived, seen)
  | fuel + 1, t :: ts, seen, arrived =>
    if seen.getD t.place true then follow code here fuel ts seen arrived
    else
      let seen := seen.setIfInBounds t.place true
      match code[t.place]? with
      | some (.look l next) =>
        if l.holds here.before here.after then
          follow code here fuel (⟨next, t.slots⟩ :: ts) seen arrived
        else follow code here fuel ts seen arrived
      | some (.split first second) =>
        follow code here fuel (⟨first, t.slots⟩ :: ⟨second, t.slots⟩ :: ts) seen arrived
      | some (.save slot next) =>
        follow code here fuel (⟨next, t.slots.set slot (some here.offset)⟩ :: ts) seen arrived
      | some (.goto next) => follow code here fuel (⟨next, t.slots⟩ :: ts) seen arrived
      | some (.one _ _) => follow code here fuel ts seen (t :: arrived)
      | some .accept => follow code here fuel ts seen (t :: arrived)
      | none => follow code here fuel ts seen arrived

/-- Enough steps for `follow`: every instruction is left once, for two others at most. -/
def followFuel (code : Array Instr) : Nat := 2 * code.size + 2

def unseen (code : Array Instr) : Array Bool := Array.replicate code.size false

/-- The threads before the first one that accepts, and what that one has found. -/
def untilAccept (code : Array Instr) : List Thread → List Thread × Option Slots
  | [] => ([], none)
  | t :: ts =>
    match code[t.place]? with
    | some .accept => ([], some t.slots)
    | _ =>
      let (before, found) := untilAccept code ts
      (t :: before, found)

/-- The threads that pass the character, each at the place where it goes on. -/
def passing (code : Array Instr) (c : Char) (threads : List Thread) : List Thread :=
  threads.filterMap fun t =>
    match code[t.place]? with
    | some (Instr.one cls next) => if cls.mem c then some ⟨next, t.slots⟩ else none
    | _ => none

/-- Follows threads one after the other, in order of preference. -/
def followAll (code : Array Instr) (here : Place) (threads : List Thread) (seen : Array Bool) :
    List Thread × Array Bool :=
  let (arrived, seen) := threads.foldl
    (fun acc t => follow code here (followFuel code) [t] acc.2 acc.1) ([], seen)
  (arrived.reverse, seen)

/-- Runs the threads over the rest of the text. While nothing has been found a match may also
begin at the present place. -/
def advance (code : Array Instr) (fresh : Thread) (before : Option Char) (offset : Nat)
    (moved : List Thread) (found : Option Slots) : List Char → Option Slots
  | [] =>
    let threads := if found.isNone then moved ++ [fresh] else moved
    let (arrived, _) := followAll code ⟨before, none, offset⟩ threads (unseen code)
    let (_, now) := untilAccept code arrived
    now <|> found
  | c :: cs =>
    let threads := if found.isNone then moved ++ [fresh] else moved
    let (arrived, _) := followAll code ⟨before, some c, offset⟩ threads (unseen code)
    let (kept, now) := untilAccept code arrived
    let found := now <|> found
    let moved := passing code c kept
    if found.isSome && moved.isEmpty then found
    else advance code fresh (some c) (offset + 1) moved found cs

/-- A pattern made ready for searching. -/
structure Searcher where
  code : Array Instr
  groupCount : Nat

def searcher (p : Pattern) : Searcher := ⟨p.code.toArray, p.groupCount⟩

/-- Where a match and its groups are, as offsets from the start of the text. -/
structure Match where
  start : Nat
  stop : Nat
  /-- The capturing groups from the first on; a group that took no part has no place. -/
  groups : List (Option (Nat × Nat))
  deriving DecidableEq, Inhabited

def slotPair (slots : Slots) (index : Nat) : Option (Nat × Nat) :=
  match slots[startSlot index]?, slots[stopSlot index]? with
  | some (some a), some (some b) => some (a, b)
  | _, _ => none

/-- The first match in the rest of a text that begins at `offset`, after `before`. -/
def Searcher.findFrom (s : Searcher) (before : Option Char) (offset : Nat) (rest : List Char) :
    Option Match :=
  let fresh : Thread := ⟨0, List.replicate (2 * (s.groupCount + 1)) none⟩
  match advance s.code fresh before offset [] none rest with
  | some slots =>
    (slotPair slots 0).map fun p =>
      ⟨p.1, p.2, (List.range s.groupCount).map fun i => slotPair slots (i + 1)⟩
  | none => none

def find? (p : Pattern) (text : List Char) : Option Match :=
  p.searcher.findFrom none 0 text

/-- The last character of `cs`, or `before` if there is none. -/
def lastOr (before : Option Char) (cs : List Char) : Option Char :=
  cs.getLast?.or before

/-- The matches from left to right. An empty match does not count directly after another
match. -/
def findAllFrom (s : Searcher) :
    Nat → Option Nat → Option Char → Nat → List Char → List Match
  | 0, _, _, _, _ => []
  | fuel + 1, lastStop, before, offset, rest =>
    match s.findFrom before offset rest with
    | none => []
    | some m =>
      if m.stop = m.start ∧ lastStop = some m.stop then
        match rest with
        | [] => []
        | c :: cs => findAllFrom s fuel none (some c) (offset + 1) cs
      else
        let passed := rest.take (m.stop - offset)
        m :: findAllFrom s fuel (some m.stop) (lastOr before passed) m.stop
          (rest.drop (m.stop - offset))

def findAll (p : Pattern) (text : List Char) : List Match :=
  findAllFrom p.searcher (2 * text.length + 2) none none 0 text

/-- A part of the text. -/
def cut (text : List Char) (start stop : Nat) : List Char :=
  (text.drop start).take (stop - start)

end StaticConfig.Pattern

/-!
Replacement of the matches of a pattern. The replacement may refer to groups of the match by
index or name: `$1`, `$name` or `$` and a name in braces; `$$` is a dollar sign.
-/
namespace StaticConfig.Pattern

def isReferenceChar (c : Char) : Bool := Text.isAscii c && c.isAlphanum || c == '_'

/-- A reference to a group after its dollar sign. -/
def readReference (cs : List Char) : Option (List Char × List Char) :=
  match cs with
  | '\x7b' :: cs =>
    match cs.span (· != '\x7d') with
    | (name, _ :: cs) => some (name, cs)
    | _ => none
  | cs =>
    let name := cs.takeWhile isReferenceChar
    if name.isEmpty then none else some (name, cs.dropWhile isReferenceChar)

/-- The greatest number by which a group can be meant. -/
def indexLimit : Nat := Nat.pow 2 64 - 1

/-- The index that a name in a reference stands for. -/
def referenceIndex (names : List (Nat × String)) (name : List Char) : Option Nat :=
  let digits := match name with
    | '+' :: ds => ds
    | ds => ds
  let number := if digits.isEmpty then none else Text.readNat 10 0 digits
  match number with
  | some n => if n ≤ indexLimit then some n else none
  | none => (names.find? fun e => e.2 == String.ofList name).map Prod.fst

/-- What group `index` of the match holds; group 0 is the whole match. -/
def Match.groupText (text : List Char) (m : Match) (index : Nat) : Option (List Char) :=
  match index with
  | 0 => some (cut text m.start m.stop)
  | i + 1 =>
    match m.groups[i]? with
    | some (some (a, b)) => some (cut text a b)
    | _ => none

/-- The replacement with its references to the match filled in. -/
def expandFrom (names : List (Nat × String)) (text : List Char) (m : Match) :
    Nat → List Char → List Char
  | 0, _ => []
  | _ + 1, [] => []
  | fuel + 1, c :: cs =>
    if c = '$' then
      match cs with
      | '$' :: cs => '$' :: expandFrom names text m fuel cs
      | cs =>
        match readReference cs with
        | some (name, cs) =>
          (((referenceIndex names name).bind (m.groupText text)).getD [])
            ++ expandFrom names text m fuel cs
        | none => '$' :: expandFrom names text m fuel cs
    else c :: expandFrom names text m fuel cs

def expand (names : List (Nat × String)) (text : List Char) (replacement : List Char)
    (m : Match) : List Char :=
  expandFrom names text m (replacement.length + 1) replacement

/-- The text from `done` on with each match replaced. -/
def replaceMatches (text : List Char) (write : Match → List Char) : Nat → List Match → List Char
  | done, [] => text.drop done
  | done, m :: ms => cut text done m.start ++ write m ++ replaceMatches text write m.stop ms

namespace Named

def replaceAll (p : Named) (replacement s : String) : String :=
  let text := s.toList
  String.ofList (replaceMatches text (expand p.names text replacement.toList) 0
    (findAll p.pattern text))

end Named

end StaticConfig.Pattern

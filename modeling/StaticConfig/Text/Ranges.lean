
/-!
Sets of characters written as lists of closed code point ranges. The tables of this folder
list only code points from 128 on; the ASCII part of a class is decided by a test of its own.
-/
namespace StaticConfig.Text

def inRanges (ranges : List (Nat × Nat)) (c : Char) : Bool :=
  ranges.any fun r => decide (r.1 ≤ c.toNat) && decide (c.toNat ≤ r.2)

def isAscii (c : Char) : Bool :=
  decide (c.toNat < 128)

theorem inRanges_nil (c : Char) : inRanges [] c = false := rfl

theorem inRanges_cons (r : Nat × Nat) (ranges : List (Nat × Nat)) (c : Char) :
    inRanges (r :: ranges) c =
      ((decide (r.1 ≤ c.toNat) && decide (c.toNat ≤ r.2)) || inRanges ranges c) := rfl

end StaticConfig.Text

/-!
White space as Unicode has it, and texts with the white space at their ends removed.
-/
namespace StaticConfig.Text

/-- Code points from 128 on with the property White_Space. -/
def blankRanges : List (Nat × Nat) := [
  (0x85, 0x85), (0xa0, 0xa0), (0x1680, 0x1680), (0x2000, 0x200a), (0x2028, 0x2029), (0x202f,
  0x202f), (0x205f, 0x205f), (0x3000, 0x3000)]

def isBlank (c : Char) : Bool :=
  if isAscii c then c == ' ' || (decide (9 ≤ c.toNat) && decide (c.toNat ≤ 13))
  else inRanges blankRanges c

/-- Drops the characters at both ends that satisfy `p`. -/
def trimBoth (p : Char → Bool) (cs : List Char) : List Char :=
  (((cs.dropWhile p).reverse).dropWhile p).reverse

def trim (s : String) : String :=
  String.ofList (trimBoth isBlank s.toList)

theorem isBlank_of_isWhitespace {c : Char} (h : c.isWhitespace) : isBlank c := by
  simp only [Char.isWhitespace, Bool.or_eq_true, decide_eq_true_eq] at h
  rcases h with ((h | h) | h) | h <;> subst h <;> decide

theorem trimBoth_nil (p : Char → Bool) : trimBoth p [] = [] := rfl

end StaticConfig.Text

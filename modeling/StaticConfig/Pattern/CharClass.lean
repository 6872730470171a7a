import StaticConfig.Text.Alphabetic
import StaticConfig.Text.Case
import StaticConfig.Text.Category
import StaticConfig.Text.Ranges

/-!
Scripts of Unicode: the characters of the script itself. The tables cover the scripts in widest
use.
-/
namespace StaticConfig.Text.Script

def latinRanges : List (Nat × Nat) := [
  (0x41, 0x5a), (0x61, 0x7a), (0xaa, 0xaa), (0xba, 0xba), (0xc0, 0xd6), (0xd8, 0xf6),
  (0xf8, 0x2b8), (0x2e0, 0x2e4), (0x1d00, 0x1d25), (0x1d2c, 0x1d5c), (0x1d62, 0x1d65),
  (0x1d6b, 0x1d77), (0x1d79, 0x1dbe), (0x1e00, 0x1eff), (0x2071, 0x2071), (0x207f, 0x207f),
  (0x2090, 0x209c), (0x212a, 0x212b), (0x2132, 0x2132), (0x214e, 0x214e), (0x2160, 0x2188),
  (0x2c60, 0x2c7f), (0xa722, 0xa787), (0xa78b, 0xa7ca), (0xa7d0, 0xa7d1), (0xa7d3, 0xa7d3),
  (0xa7d5, 0xa7d9), (0xa7f2, 0xa7ff), (0xab30, 0xab5a), (0xab5c, 0xab64), (0xab66, 0xab69),
  (0xfb00, 0xfb06), (0xff21, 0xff3a), (0xff41, 0xff5a), (0x10780, 0x10785), (0x10787, 0x107b0),
  (0x107b2, 0x107ba), (0x1df00, 0x1df1e), (0x1df25, 0x1df2a)]

def greekRanges : List (Nat × Nat) := [
  (0x370, 0x373), (0x375, 0x377), (0x37a, 0x37d), (0x37f, 0x37f), (0x384, 0x384), (0x386, 0x386),
  (0x388, 0x38a), (0x38c, 0x38c), (0x38e, 0x3a1), (0x3a3, 0x3e1), (0x3f0, 0x3ff),
  (0x1d26, 0x1d2a), (0x1d5d, 0x1d61), (0x1d66, 0x1d6a), (0x1dbf, 0x1dbf), (0x1f00, 0x1f15),
  (0x1f18, 0x1f1d), (0x1f20, 0x1f45), (0x1f48, 0x1f4d), (0x1f50, 0x1f57), (0x1f59, 0x1f59),
  (0x1f5b, 0x1f5b), (0x1f5d, 0x1f5d), (0x1f5f, 0x1f7d), (0x1f80, 0x1fb4), (0x1fb6, 0x1fc4),
  (0x1fc6, 0x1fd3), (0x1fd6, 0x1fdb), (0x1fdd, 0x1fef), (0x1ff2, 0x1ff4), (0x1ff6, 0x1ffe),
  (0x2126, 0x2126), (0xab65, 0xab65), (0x10140, 0x1018e), (0x101a0, 0x101a0), (0x1d200, 0x1d245)]

def cyrillicRanges : List (Nat × Nat) := [
  (0x400, 0x484), (0x487, 0x52f), (0x1c80, 0x1c88), (0x1d2b, 0x1d2b), (0x1d78, 0x1d78),
  (0x2de0, 0x2dff), (0xa640, 0xa69f), (0xfe2e, 0xfe2f), (0x1e030, 0x1e06d), (0x1e08f, 0x1e08f)]

def armenianRanges : List (Nat × Nat) := [
  (0x531, 0x556), (0x559, 0x58a), (0x58d, 0x58f), (0xfb13, 0xfb17)]

def hebrewRanges : List (Nat × Nat) := [
  (0x591, 0x5c7), (0x5d0, 0x5ea), (0x5ef, 0x5f4), (0xfb1d, 0xfb36), (0xfb38, 0xfb3c),
  (0xfb3e, 0xfb3e), (0xfb40, 0xfb41), (0xfb43, 0xfb44), (0xfb46, 0xfb4f)]

def arabicRanges : List (Nat × Nat) := [
  (0x600, 0x604), (0x606, 0x60b), (0x60d, 0x61a), (0x61c, 0x61e), (0x620, 0x63f), (0x641, 0x64a),
  (0x656, 0x66f), (0x671, 0x6dc), (0x6de, 0x6ff), (0x750, 0x77f), (0x870, 0x88e), (0x890, 0x891),
  (0x898, 0x8e1), (0x8e3, 0x8ff), (0xfb50, 0xfbc2), (0xfbd3, 0xfd3d), (0xfd40, 0xfd8f),
  (0xfd92, 0xfdc7), (0xfdcf, 0xfdcf), (0xfdf0, 0xfdff), (0xfe70, 0xfe74), (0xfe76, 0xfefc),
  (0x10e60, 0x10e7e), (0x10efd, 0x10eff), (0x1ee00, 0x1ee03), (0x1ee05, 0x1ee1f),
  (0x1ee21, 0x1ee22), (0x1ee24, 0x1ee24), (0x1ee27, 0x1ee27), (0x1ee29, 0x1ee32),
  (0x1ee34, 0x1ee37), (0x1ee39, 0x1ee39), (0x1ee3b, 0x1ee3b), (0x1ee42, 0x1ee42),
  (0x1ee47, 0x1ee47), (0x1ee49, 0x1ee49), (0x1ee4b, 0x1ee4b), (0x1ee4d, 0x1ee4f),
  (0x1ee51, 0x1ee52), (0x1ee54, 0x1ee54), (0x1ee57, 0x1ee57), (0x1ee59, 0x1ee59),
  (0x1ee5b, 0x1ee5b), (0x1ee5d, 0x1ee5d), (0x1ee5f, 0x1ee5f), (0x1ee61, 0x1ee62),
  (0x1ee64, 0x1ee64), (0x1ee67, 0x1ee6a), (0x1ee6c, 0x1ee72), (0x1ee74, 0x1ee77),
  (0x1ee79, 0x1ee7c), (0x1ee7e, 0x1ee7e), (0x1ee80, 0x1ee89), (0x1ee8b, 0x1ee9b),
  (0x1eea1, 0x1eea3), (0x1eea5, 0x1eea9), (0x1eeab, 0x1eebb), (0x1eef0, 0x1eef1)]

def devanagariRanges : List (Nat × Nat) := [
  (0x900, 0x950), (0x955, 0x963), (0x966, 0x97f), (0xa8e0, 0xa8ff), (0x11b00, 0x11b09)]

def thaiRanges : List (Nat × Nat) := [
  (0xe01, 0xe3a), (0xe40, 0xe5b)]

def hangulRanges : List (Nat × Nat) := [
  (0x1100, 0x11ff), (0x302e, 0x302f), (0x3131, 0x318e), (0x3200, 0x321e), (0x3260, 0x327e),
  (0xa960, 0xa97c), (0xac00, 0xd7a3), (0xd7b0, 0xd7c6), (0xd7cb, 0xd7fb), (0xffa0, 0xffbe),
  (0xffc2, 0xffc7), (0xffca, 0xffcf), (0xffd2, 0xffd7), (0xffda, 0xffdc)]

def hiraganaRanges : List (Nat × Nat) := [
  (0x3041, 0x3096), (0x309d, 0x309f), (0x1b001, 0x1b11f), (0x1b132, 0x1b132), (0x1b150, 0x1b152),
  (0x1f200, 0x1f200)]

def katakanaRanges : List (Nat × Nat) := [
  (0x30a1, 0x30fa), (0x30fd, 0x30ff), (0x31f0, 0x31ff), (0x32d0, 0x32fe), (0x3300, 0x3357),
  (0xff66, 0xff6f), (0xff71, 0xff9d), (0x1aff0, 0x1aff3), (0x1aff5, 0x1affb), (0x1affd, 0x1affe),
  (0x1b000, 0x1b000), (0x1b120, 0x1b122), (0x1b155, 0x1b155), (0x1b164, 0x1b167)]

def hanRanges : List (Nat × Nat) := [
  (0x2e80, 0x2e99), (0x2e9b, 0x2ef3), (0x2f00, 0x2fd5), (0x3005, 0x3005), (0x3007, 0x3007),
  (0x3021, 0x3029), (0x3038, 0x303b), (0x3400, 0x4dbf), (0x4e00, 0x9fff), (0xf900, 0xfa6d),
  (0xfa70, 0xfad9), (0x16fe2, 0x16fe3), (0x16ff0, 0x16ff1), (0x20000, 0x2a6df),
  (0x2a700, 0x2b739), (0x2b740, 0x2b81d), (0x2b820, 0x2cea1), (0x2ceb0, 0x2ebe0),
  (0x2f800, 0x2fa1d), (0x30000, 0x3134a), (0x31350, 0x323af)]

/-- The scripts by short and long name. -/
def tables : List (String × String × List (Nat × Nat)) := [
  ("latn", "latin", latinRanges),
  ("grek", "greek", greekRanges),
  ("cyrl", "cyrillic", cyrillicRanges),
  ("armn", "armenian", armenianRanges),
  ("hebr", "hebrew", hebrewRanges),
  ("arab", "arabic", arabicRanges),
  ("deva", "devanagari", devanagariRanges),
  ("thai", "thai", thaiRanges),
  ("hang", "hangul", hangulRanges),
  ("hira", "hiragana", hiraganaRanges),
  ("kana", "katakana", katakanaRanges),
  ("hani", "han", hanRanges)]

def named? (name : String) : Option (List (Nat × Nat)) :=
  (tables.find? fun t => t.1 == name || t.2.1 == name).map fun t => t.2.2

end StaticConfig.Text.Script

/-!
Classes of characters, as a pattern describes them. `CharClass.mem` says which characters are in
a class; the operations on classes are those on sets.
-/
namespace StaticConfig

inductive CharClass where
  /-- The characters from the first to the last one. -/
  | span (first last : Char)
  | decimal
  | blank
  | word
  | alphabetic
  | uppercase
  | lowercase
  | category (cs : List Text.Category)
  | ranges (rs : List (Nat × Nat))
  | compl (a : CharClass)
  | union (a b : CharClass)
  | inter (a b : CharClass)
  | diff (a b : CharClass)
  | symmDiff (a b : CharClass)
  /-- The characters that differ from one of the class in case only. -/
  | folded (a : CharClass)
  /-- The same among the first 128 characters. -/
  | asciiFolded (a : CharClass)
  deriving DecidableEq, Inhabited

namespace CharClass

/-- Letters, marks, digits, connectors and joiners: the characters of words. -/
def isWord (c : Char) : Bool :=
  if Text.isAscii c then c.isAlphanum || c == '_'
  else Text.isAlphabetic c || [0x200c, 0x200d].contains c.toNat
    || [Text.Category.nonspacingMark, .spacingMark, .enclosingMark, .decimalNumber,
        .connectorPunctuation].contains (Text.Category.of c)

def isUppercase (c : Char) : Bool :=
  c.isUpper || !Text.isAscii c && (Text.Category.of c == .uppercaseLetter
    || (decide (0x2160 ≤ c.toNat) && decide (c.toNat ≤ 0x216f))
    || (decide (0x24b6 ≤ c.toNat) && decide (c.toNat ≤ 0x24cf)))

def isLowercase (c : Char) : Bool :=
  c.isLower || !Text.isAscii c && (Text.Category.of c == .lowercaseLetter
    || [0xaa, 0xba].contains c.toNat
    || (decide (0x2170 ≤ c.toNat) && decide (c.toNat ≤ 0x217f))
    || (decide (0x24d0 ≤ c.toNat) && decide (c.toNat ≤ 0x24e9)))

def asciiVariants (c : Char) : List Char :=
  if Text.isAscii c then [c, c.toLower, c.toUpper] else [c]

def mem : CharClass → Char → Bool
  | span first last, c => decide (first ≤ c) && decide (c ≤ last)
  | decimal, c =>
    if Text.isAscii c then c.isDigit else Text.inRanges Text.Category.decimalNumberRanges c
  | blank, c => Text.isBlank c
  | word, c => isWord c
  | alphabetic, c => Text.isAlphabetic c
  | uppercase, c => isUppercase c
  | lowercase, c => isLowercase c
  | category cs, c => cs.contains (Text.Category.of c)
  | ranges rs, c => Text.inRanges rs c
  | compl a, c => !a.mem c
  | union a b, c => a.mem c || b.mem c
  | inter a b, c => a.mem c && b.mem c
  | diff a b, c => a.mem c && !b.mem c
  | symmDiff a b, c => a.mem c != b.mem c
  | folded a, c => (Text.caseVariants c).any a.mem
  | asciiFolded a, c => (asciiVariants c).any a.mem

def single (c : Char) : CharClass := span c c

/-- No character. -/
def never : CharClass := ranges []

def any : CharClass := compl never

def asciiDigit : CharClass := span '0' '9'

def asciiLower : CharClass := span 'a' 'z'

def asciiUpper : CharClass := span 'A' 'Z'

def asciiLetter : CharClass := union asciiLower asciiUpper

def asciiWord : CharClass := union (union asciiDigit asciiLetter) (single '_')

def asciiBlank : CharClass := union (span '\t' '\r') (single ' ')

/-- The classes that can be named between `[:` and `:]`. -/
def named : List (String × CharClass) := [
  ("alnum", union asciiDigit asciiLetter),
  ("alpha", asciiLetter),
  ("ascii", span '\x00' '\x7f'),
  ("blank", union (single '\t') (single ' ')),
  ("cntrl", union (span '\x00' '\x1f') (single '\x7f')),
  ("digit", asciiDigit),
  ("graph", span '!' '~'),
  ("lower", asciiLower),
  ("print", span ' ' '~'),
  ("punct",
    union (union (span '!' '/') (span ':' '@')) (union (span '[' '\x60') (span '\x7b' '~'))),
  ("space", asciiBlank),
  ("upper", asciiUpper),
  ("word", asciiWord),
  ("xdigit", union asciiDigit (union (span 'a' 'f') (span 'A' 'F')))]

theorem mem_compl (a : CharClass) (c : Char) : (compl a).mem c = !a.mem c := rfl

theorem mem_union (a b : CharClass) (c : Char) : (union a b).mem c = (a.mem c || b.mem c) := rfl

theorem mem_single (a c : Char) : (single a).mem c = true ↔ c = a := by
  simp only [single, mem, Bool.and_eq_true, decide_eq_true_eq]
  constructor
  · intro h
    exact Char.le_antisymm h.2 h.1
  · rintro rfl
    exact ⟨Char.le_refl c, Char.le_refl c⟩

end CharClass

end StaticConfig

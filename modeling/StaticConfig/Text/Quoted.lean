import StaticConfig.Text.Alphabetic

/-!
Texts as the configuration language writes them: identifiers, and quoted templates without
interpolations. A dollar or percent sign before an opening brace is doubled, so that it does
not start a template sequence.
-/
namespace StaticConfig.Text

def isIdentifierStart (c : Char) : Bool :=
  isAlphabetic c || c == '_'

def isIdentifierPart (c : Char) : Bool :=
  isAlphanumeric c || c == '_' || c == '-'

theorem isIdentifierPart_of_start {c : Char} (h : isIdentifierStart c = true) :
    isIdentifierPart c = true := by
  simp only [isIdentifierStart, Bool.or_eq_true] at h
  simp only [isIdentifierPart, isAlphanumeric, Bool.or_eq_true]
  exact .inl (h.imp_left .inl)

def isIdentifier (s : String) : Bool :=
  match s.toList with
  | [] => false
  | c :: cs => isIdentifierStart c && cs.all isIdentifierPart

theorem isIdentifierPart_of_mem {s : String} (h : isIdentifier s = true) :
    ∀ c ∈ s.toList, isIdentifierPart c = true := by
  unfold isIdentifier at h
  split at h
  · cases h
  · next c cs hchars =>
    obtain ⟨hc, hcs⟩ := Bool.and_eq_true_iff.1 h
    rw [hchars]
    exact List.forall_mem_cons.2 ⟨isIdentifierPart_of_start hc, List.all_eq_true.1 hcs⟩

theorem dot_not_mem_of_isIdentifier {s : String} (h : isIdentifier s = true) : '.' ∉ s.toList := by
  have hdot : isIdentifierPart '.' = false := by decide
  intro hmem
  rw [isIdentifierPart_of_mem h _ hmem] at hdot
  cases hdot

namespace Quoted

def openBrace : Char := Char.ofNat 0x7b

/-- The body of the quoted form, without the quotes. -/
def encode : List Char → List Char
  | [] => []
  | c :: cs =>
    (if c = '"' then ['\\', '"']
      else if c = '\\' then ['\\', '\\']
      else if c = '\n' then ['\\', 'n']
      else if c = '\r' then ['\\', 'r']
      else if c = '\t' then ['\\', 't']
      else if (c = '$' ∨ c = '%') ∧ cs.head? = some openBrace then [c, c]
      else [c]) ++ encode cs

end Quoted

/-- The quoted template that denotes `s`. -/
def quoted (s : String) : String :=
  String.ofList ('"' :: Quoted.encode s.toList ++ ['"'])

end StaticConfig.Text

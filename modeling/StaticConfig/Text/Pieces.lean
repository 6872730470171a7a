
/-!
Occurrences of a piece of text in a text: splitting at them, replacing them, and cutting a
piece off either end. Occurrences are found from the left and do not overlap.
-/
namespace StaticConfig.Text

/-- The parts of the text between the occurrences of a non-empty `sep`. The first `skip`
characters belong to an occurrence already found, and `part` holds the current part reversed. -/
def splitFrom (sep : List Char) (skip : Nat) (part : List Char) : List Char → List (List Char)
  | [] => [part.reverse]
  | c :: cs =>
    match skip with
    | k + 1 => splitFrom sep k part cs
    | 0 =>
      if sep.isPrefixOf (c :: cs) then part.reverse :: splitFrom sep (sep.length - 1) [] cs
      else splitFrom sep 0 (c :: part) cs

/-- The parts between the occurrences of `sep`; the single characters when `sep` is empty. -/
def split (sep s : String) : List String :=
  if sep.isEmpty then s.toList.map String.singleton
  else (splitFrom sep.toList 0 [] s.toList).map String.ofList

/-- Writes `new` for every occurrence of `old`. The empty text occurs before every character
and at the end. -/
def replace (old new s : String) : String :=
  if old.isEmpty then
    String.ofList (new.toList ++ s.toList.flatMap fun c => c :: new.toList)
  else
    String.ofList (List.intercalate new.toList (splitFrom old.toList 0 [] s.toList))

def startsWith (start s : String) : Bool :=
  start.toList.isPrefixOf s.toList

def endsWith (finish s : String) : Bool :=
  finish.toList.isSuffixOf s.toList

def dropStart (start s : String) : String :=
  if startsWith start s then String.ofList (s.toList.drop start.toList.length) else s

def dropEnd (finish s : String) : String :=
  if endsWith finish s then String.ofList (s.toList.take (s.toList.length - finish.toList.length))
  else s

def occursIn (piece : List Char) : List Char → Bool
  | [] => piece.isEmpty
  | c :: cs => piece.isPrefixOf (c :: cs) || occursIn piece cs

/-- The text before and after the first occurrence of `sep`. -/
def splitOnce (sep : Char) : List Char → Option (List Char × List Char)
  | [] => none
  | c :: cs =>
    if c = sep then some ([], cs)
    else (splitOnce sep cs).map fun p => (c :: p.1, p.2)

theorem splitOnce_eq_some {sep : Char} {cs before after : List Char}
    (h : splitOnce sep cs = some (before, after)) : cs = before ++ sep :: after := by
  induction cs generalizing before after with
  | nil => simp [splitOnce] at h
  | cons c cs ih =>
    simp only [splitOnce] at h
    by_cases hc : c = sep
    · simp [hc] at h; simp [hc, h.1.symm, h.2]
    · simp only [hc, if_false, Option.map_eq_some_iff] at h
      obtain ⟨⟨b, a⟩, hb, heq⟩ := h
      cases heq
      simp [ih hb]

end StaticConfig.Text

/-!
Paths as texts, with slashes between their parts.
-/
namespace StaticConfig.Text.Path

def isAbsolute (path : String) : Bool := startsWith "/" path

/-- The path with slashes in place of backslashes. -/
def slashed (path : String) : String := replace "\\" "/" path

/-- The path `part` seen from `base`. An absolute one is itself. -/
def join (base part : String) : String :=
  if isAbsolute part then part
  else if base.isEmpty || endsWith "/" base then base ++ part
  else base ++ "/" ++ part

/-- The parts between slashes, without empty ones and dots. Two dots are kept. -/
def parts (path : String) : List String :=
  (split "/" path).filter fun s => !(s.isEmpty || s == ".")

/-- The name at the end of a path. A path that ends in two dots, or has no parts, has none. -/
def fileName (path : String) : String :=
  match (parts path).getLast? with
  | some name => if name = ".." then "" else name
  | none => ""

/-- The absolute path without repeated slashes and dots. A slash at the end stays, and so do two
slashes at the start, which have a meaning of their own. -/
def normalized (path : String) : String :=
  let root := if startsWith "//" path && !startsWith "///" path then "//" else "/"
  let body := String.intercalate "/" (parts path)
  let close := if endsWith "/" path && !body.isEmpty then "/" else ""
  root ++ body ++ close

end StaticConfig.Text.Path

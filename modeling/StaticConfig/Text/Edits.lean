/-!
The number of single character edits between two texts, and the nearest of several names.
-/
namespace StaticConfig.Text

/-- The row of distances after one more character `c` of the first text. `diagonal` is the
entry above and to the left, `left` the entry just computed. -/
def editRow (c : Char) : List Char → List Nat → Nat → Nat → List Nat
  | d :: ds, above :: row, diagonal, left =>
    let here := min (min (above + 1) (left + 1)) (diagonal + if c = d then 0 else 1)
    here :: editRow c ds row above here
  | _, _, _, _ => []

def editRows : List Char → List Char → List Nat → Nat → List Nat
  | [], _, row, start => start :: row
  | c :: cs, ds, row, start => editRows cs ds (editRow c ds row start (start + 1)) (start + 1)

/-- The least number of insertions, deletions and replacements that turn `a` into `b`. -/
def editDistance (a b : String) : Nat :=
  let row := (List.range b.toList.length).map (· + 1)
  (editRows a.toList b.toList row 0).getLastD 0

/-- The first candidate less than three edits away from `given`. -/
def suggestion (given : String) (candidates : List String) : Option String :=
  candidates.find? fun c => decide (editDistance given c < 3)

end StaticConfig.Text

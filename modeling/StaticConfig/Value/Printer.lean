import StaticConfig.Text.Quoted
import StaticConfig.Value.Marks

/-!
Values as expressions of the configuration language, and values as they are shown. Only a value
without unknown parts can be written as an expression. What is marked is not shown, but a mark
inside a value does not hide that part.
-/
namespace StaticConfig.Value

def nameText (k : String) : String :=
  if Text.isIdentifier k then k else Text.quoted k

def bracketed (parts : List String) : String :=
  "[" ++ String.intercalate ", " parts ++ "]"

def braced (lines : List String) : String :=
  if lines.isEmpty then "\x7b\x7d"
  else "\x7b\n" ++ String.join (lines.map fun l => l ++ "\n") ++ "\x7d"

mutual

/-- The expression that denotes the value, marks left out. There is none for unknown values. -/
def write? : Value → Option String
  | null _ => some "null"
  | unknown _ => none
  | bool b => some (if b then "true" else "false")
  | number n => some n.text
  | string s => some (Text.quoted s)
  | list _ items => (writeItems? items).map bracketed
  | set _ items => (writeItems? items).map bracketed
  | tuple items => (writeItems? items).map bracketed
  | map _ entries => (writeFields? entries).map braced
  | object attrs => (writeFields? attrs).map braced
  | sensitive v => v.write?

def writeItems? : List Value → Option (List String)
  | [] => some []
  | v :: vs =>
    match v.write?, writeItems? vs with
    | some s, some rest => some (s :: rest)
    | _, _ => none

def writeFields? : List (String × Value) → Option (List String)
  | [] => some []
  | (k, v) :: more =>
    match v.write?, writeFields? more with
    | some s, some rest => some ((nameText k ++ " = " ++ s) :: rest)
    | _, _ => none

end

/-- The text that stands for the value in output. -/
def shown (v : Value) : String :=
  if v.isMarked then "(sensitive value)"
  else match v.write? with
    | some s => s
    | none => "(known after apply)"

end StaticConfig.Value

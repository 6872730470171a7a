import StaticConfig.Fields
import StaticConfig.Text.Pieces

/-!
Files and directories by path. A path leads from the top of the tree, or from the working
directory, through directories only; two dots lead back to the directory passed before, and the
top of the tree is its own parent.
-/
namespace StaticConfig

/-- Why a path does not lead to what is asked for. -/
inductive FileFault where
  | missing
  | notDirectory
  | isDirectory
  | nameTooLong
  | nulInName
  deriving DecidableEq, Inhabited

namespace FileFault

def message : FileFault → String
  | missing => "No such file or directory (os error 2)"
  | notDirectory => "Not a directory (os error 20)"
  | isDirectory => "Is a directory (os error 21)"
  | nameTooLong => "File name too long (os error 36)"
  | nulInName => "file name contained an unexpected NUL byte"

end FileFault

inductive FileNode where
  | file (text : String)
  | directory (entries : List (String × FileNode))
  deriving Inhabited

namespace FileNode

def empty : FileNode := directory []

/-- Longest name of an entry, in bytes. -/
def nameLimit : Nat := 255

/-- Follows the parts of a path. `parents` holds the directories passed, the last one first. -/
def follow (parents : List FileNode) (n : FileNode) : List String → Except FileFault FileNode
  | [] => .ok n
  | part :: parts =>
    match n with
    | file _ => .error .notDirectory
    | directory entries =>
      if part = "" ∨ part = "." then follow parents (directory entries) parts
      else if part = ".." then
        match parents with
        | [] => follow [] (directory entries) parts
        | parent :: rest => follow rest parent parts
      else if nameLimit < part.utf8ByteSize then .error .nameTooLong
      else
        match Fields.get? part entries with
        | some child => follow (directory entries :: parents) child parts
        | none => .error .missing

/-- The entries of a directory; a file has none. -/
def entries : FileNode → List (String × FileNode)
  | directory es => es
  | file _ => []

/-- Puts a node at the end of a path, through directories that are made where none is. -/
def put (new : FileNode) : List String → FileNode → FileNode
  | [], _ => new
  | part :: parts, n =>
    let child := (Fields.get? part n.entries).getD empty
    directory (Fields.insert part (put new parts child) n.entries)

/-- Makes the directories of a path, and keeps what is there already. -/
def makeDirectory : List String → FileNode → FileNode
  | [], n => n
  | part :: parts, n =>
    let child := (Fields.get? part n.entries).getD empty
    directory (Fields.insert part (makeDirectory parts child) n.entries)

end FileNode

structure FileTree where
  top : FileNode
  /-- The names from the top to the directory in which relative paths begin. -/
  workingDir : List String
  deriving Inhabited

namespace FileTree

/-- The tree of a working directory, its directories and its files. -/
def ofFiles (workingDir : List String) (directories : List String)
    (files : List (String × String)) : FileTree :=
  let place (path : String) : List String := workingDir ++ Text.Path.parts path
  let top := FileNode.makeDirectory workingDir .empty
  let top := directories.foldl (fun n d => n.makeDirectory (place d)) top
  ⟨files.foldl (fun n f => FileNode.put (.file f.2) (place f.1) n) top, workingDir⟩

/-- Longest path that can be followed, in bytes. -/
def pathLimit : Nat := 4095

/-- What a path leads to. -/
def find (t : FileTree) (path : String) : Except FileFault FileNode :=
  if path.toList.contains '\x00' then .error .nulInName
  else if path.isEmpty then .error .missing
  else if pathLimit < path.utf8ByteSize then .error .nameTooLong
  else
    let parts := Text.split "/" path
    FileNode.follow [] t.top (if Text.Path.isAbsolute path then parts else t.workingDir ++ parts)

def isFile (t : FileTree) (path : String) : Bool :=
  match t.find path with
  | .ok (.file _) => true
  | _ => false

def isDirectory (t : FileTree) (path : String) : Bool :=
  match t.find path with
  | .ok (.directory _) => true
  | _ => false

def read (t : FileTree) (path : String) : Except FileFault String :=
  match t.find path with
  | .ok (.file text) => .ok text
  | .ok (.directory _) => .error .isDirectory
  | .error fault => .error fault

/-- The paths of the entries of a directory, in ascending order of name. -/
def list (t : FileTree) (path : String) : Except FileFault (List String) :=
  match t.find path with
  | .ok (.directory entries) => .ok (entries.map fun e => Text.Path.join path e.1)
  | .ok (.file _) => .error .notDirectory
  | .error fault => .error fault

theorem isDirectory_of_error {t : FileTree} {path : String} {fault : FileFault}
    (h : t.find path = .error fault) : t.isDirectory path = false := by
  simp [isDirectory, h]

/-- A path beyond the limit leads nowhere. -/
theorem isDirectory_of_long {t : FileTree} {path : String}
    (h : pathLimit < path.utf8ByteSize) : t.isDirectory path = false := by
  have hne : path.isEmpty = false := by
    cases hp : path.isEmpty with
    | false => rfl
    | true =>
      have : path.utf8ByteSize = 0 := by simpa [String.isEmpty] using hp
      omega
  by_cases hnul : path.toList.contains '\x00' = true
  · exact isDirectory_of_error (by rw [find, if_pos hnul])
  · exact isDirectory_of_error
      (by rw [find, if_neg hnul, if_neg (by simp [hne]), if_pos h])

end FileTree

end StaticConfig

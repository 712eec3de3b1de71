import SfcTheme.OrderedMap
import SfcTheme.Text

set_option autoImplicit false

namespace SfcTheme

inductive Node where
  | file (octets : List UInt8)
  | directory
  deriving DecidableEq, Repr

abbrev Path := List Text

structure FileTree where
  nodes : OrderedMap Path Node
  workingDirectory : Path

inductive PathFault where
  | missing | notDirectory
  deriving DecidableEq, Repr

def PathFault.message : PathFault → Text
  | .missing => "No such file or directory"
  | .notDirectory => "Not a directory"

namespace FileTree

/-- The root is a directory of every tree. -/
def node? (t : FileTree) (p : Path) : Option Node := if p = [] then some .directory else t.nodes.get? p

def put (t : FileTree) (p : Path) (n : Node) : FileTree := { t with nodes := t.nodes.put p n }

theorem node?_put (t : FileTree) (p q : Path) (n : Node) (h : p ≠ []) :
    (t.put p n).node? q = if q = p then some n else t.node? q := by
  by_cases hq : q = []
  · subst hq; simp [node?, Ne.symm h]
  · simp [node?, put, hq]

def putDirectories (t : FileTree) (p : Path) : FileTree :=
  (List.range p.length).foldl (fun t k => t.put (p.take (k + 1)) .directory) t

/-- Goes on from `here` by one name after another. Only a directory can be gone on from, also by a
name that stays in it. -/
def walk (t : FileTree) (here : Path) : List Text → Except PathFault Path
  | [] => .ok here
  | name :: names =>
    if t.node? here ≠ some .directory then .error .notDirectory
    else if name = [] ∨ name = ['.'] then t.walk here names
    else if name = ['.', '.'] then t.walk here.dropLast names
    else if t.node? (here ++ [name]) = none then .error .missing
    else t.walk (here ++ [name]) names

def start (t : FileTree) (path : Text) : Path :=
  if path.head? = some '/' then [] else t.workingDirectory

def find? (t : FileTree) (path : Text) : Option (Path × Node) :=
  if path = [] then none
  else match t.walk (t.start path) (path.splitOn '/') with
    | .error _ => none
    | .ok p => (t.node? p).map (p, ·)

/-- The names in a path text but those that stay where they are. -/
def names (path : Text) : List Text :=
  (path.splitOn '/').filter fun name => name != [] && name != ['.']

def tidied (path : Text) : Text :=
  let root : Text := if path.head? = some '/' then "/" else []
  match root ++ List.intercalate "/" (names path) with
  | [] => ['.']
  | s => s

def lastName (path : Text) : Text := (names path).getLastD []

def write (t : FileTree) (path : Text) (octets : List UInt8) : Except PathFault FileTree :=
  match t.walk (t.start path) (names path).dropLast with
  | .error f => .error f
  | .ok parent =>
    if t.node? parent = some .directory then .ok (t.put (parent ++ [lastName path]) (.file octets))
    else .error .notDirectory

end FileTree

end SfcTheme

import SfcTheme.Command.Task

/-!
The program on real files. The tree it works on holds what the words of the command line can name,
and the files that have changed in it are written back.
-/

set_option autoImplicit false

namespace SfcTheme.Program

/-- The paths that a word may name: itself, a value after an equals sign or one after a letter. -/
def candidates (word : Text) : List Text :=
  [word, (word.dropWhile (· != '=')).drop 1, word.drop 2]

def descend (here : Path) (names : List Text) : Path :=
  names.foldl (fun p name => if name = ['.', '.'] then p.dropLast else p ++ [name]) here

def addPath (tree : FileTree) (path : Text) : IO FileTree := do
  let names := FileTree.names path
  let root : Text := if path.head? = some '/' then "/" else []
  let here ← IO.currentDir
  let mut tree := tree
  for k in List.range names.length do
    let part := names.take (k + 1)
    let found := here / String.ofList (root ++ List.intercalate "/" part)
    let place := descend (tree.start path) part
    if ← found.isDir then tree := tree.putDirectories place
    else if ← found.pathExists then
      tree := tree.put place (.file (← IO.FS.readBinFile found).toList)
  return tree

def treeFor (words : List Text) : IO FileTree := do
  let here := FileTree.names (← IO.currentDir).toString.toList
  let tree := (FileTree.mk .empty here).putDirectories here
  (words.flatMap candidates).foldlM addPath tree

def writeBack (before after : FileTree) : IO Unit := do
  for (path, node) in after.nodes.entries do
    match node with
    | .directory => pure ()
    | .file octets =>
      if before.node? path ≠ some node then
        IO.FS.writeBinFile (String.ofList ("/" ++ List.intercalate "/" path)) ⟨octets.toArray⟩

def display (e : Event) : IO Unit := do
  match e with
  | .log _ _ => pure ()
  | .print .out t => (← IO.getStdout).putStr (String.ofList t)
  | .print .err t => (← IO.getStderr).putStr (String.ofList t)

def start (words : List Text) : IO UInt32 := do
  let tree ← treeFor words
  let outcome := execute tree words
  writeBack tree outcome.tree
  outcome.events.forM display
  if let some fault := outcome.crash then
    display (.print .err ("Error: " ++ fault.message ++ "\n"))
  return UInt32.ofNat outcome.exitCode

end SfcTheme.Program

def main (words : List String) : IO UInt32 := SfcTheme.Program.start (words.map String.toList)

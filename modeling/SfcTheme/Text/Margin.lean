import SfcTheme.Text.Line

/-!
The margin of a block is the indentation that all its lines share. Spaces and tabs indent, and a
tab is not some number of spaces. Lines of indentation alone do not count and become empty.
-/

set_option autoImplicit false

namespace SfcTheme.Text

def isIndent (c : Char) : Bool := c == ' ' || c == '\t'

def indentation (line : Text) : Text := line.takeWhile isIndent

def isEmptyLine (line : Text) : Bool := line.all isIndent

def common : Text → Text → Text
  | a :: s, b :: t => if a = b then a :: common s t else []
  | _, _ => []

def margin (ls : List Text) : Text :=
  match (ls.filter fun l => !isEmptyLine l).map indentation with
  | [] => []
  | i :: is => is.foldl common i

def deindentedLine (margin line : Text) : Text :=
  if isEmptyLine line then [] else line.drop margin.length

def deindented (s : Text) : Text :=
  let ls := lines s
  unlines (ls.map (deindentedLine (margin ls)))

example : deindented "\n  a\n    b\n \t\n  c" = ("\na\n  b\n\nc" : Text) := by decide
example : deindented "a\n  b" = ("a\n  b" : Text) := by decide
example : deindented " \ta\n  b" = ("\ta\n b" : Text) := by decide

end SfcTheme.Text

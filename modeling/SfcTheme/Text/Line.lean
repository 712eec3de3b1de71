import SfcTheme.Text

set_option autoImplicit false

namespace SfcTheme

namespace Text

def newlines (s : Text) : Nat := s.count '\n'

@[simp] theorem newlines_nil : newlines [] = 0 := rfl

@[simp] theorem newlines_append (s t : Text) : newlines (s ++ t) = newlines s + newlines t :=
  List.count_append

def blankedLines (s : Text) : Text := List.replicate (newlines s) '\n'

@[simp] theorem newlines_blankedLines (s : Text) : newlines (blankedLines s) = newlines s := by
  simp [blankedLines, newlines]

def lines (s : Text) : List Text := s.splitOn '\n'

theorem lines_ne_nil (s : Text) : lines s ≠ [] := List.splitOn_ne_nil '\n' s

theorem length_lines (s : Text) : (lines s).length = newlines s + 1 := length_splitOn '\n' s

def unlines (ls : List Text) : Text := List.intercalate ['\n'] ls

@[simp] theorem unlines_lines (s : Text) : unlines (lines s) = s := List.intercalate_splitOn '\n'

/-- A carriage return, alone or before a line feed, ends a line as a line feed does. -/
def unifiedNewlines : Text → Text
  | [] => []
  | '\r' :: '\n' :: s => '\n' :: unifiedNewlines s
  | c :: s => (if c = '\r' then '\n' else c) :: unifiedNewlines s

end Text

structure Position where
  line : Nat
  column : Nat
  deriving DecidableEq, Repr

/-- Where the character at `offset` stands. An offset past the end counts on in the last line. -/
def Position.ofOffset (source : Text) (offset : Nat) : Position :=
  let before := source.take offset
  let inLine := (before.reverse.takeWhile (· != '\n')).length
  ⟨Text.newlines before + 1, inLine + (offset - source.length) + 1⟩

example : Position.ofOffset "ab\n\nc" 4 = ⟨3, 1⟩ := by decide
example : Position.ofOffset "ab\n\nc" 2 = ⟨1, 3⟩ := by decide

end SfcTheme

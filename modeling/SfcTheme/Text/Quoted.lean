import SfcTheme.Text.Printable

set_option autoImplicit false

namespace SfcTheme.Text

def quoteMark (s : Text) : Char := if '\x27' ∈ s ∧ '"' ∉ s then '"' else '\x27'

def hex (width n : Nat) : Text :=
  let digits := Nat.toDigits 16 n
  List.replicate (width - digits.length) '0' ++ digits

/-- A code point in the shortest of the three widths that holds it. -/
def codeEscape (n : Nat) : Text :=
  if n < 0x100 then '\\' :: 'x' :: hex 2 n
  else if n < 0x10000 then '\\' :: 'u' :: hex 4 n
  else '\\' :: 'U' :: hex 8 n

def quotedChar (mark c : Char) : Text :=
  if c = mark ∨ c = '\\' then ['\\', c]
  else if c = '\n' then ['\\', 'n']
  else if c = '\r' then ['\\', 'r']
  else if c = '\t' then ['\\', 't']
  else if isPrintable c then [c]
  else codeEscape c.toNat

def quoted (s : Text) : Text :=
  let mark := quoteMark s
  mark :: s.flatMap (quotedChar mark) ++ [mark]

example : quoted "dark" = ("'dark'" : Text) := by decide +kernel
example : quoted "it's" = ("\"it's\"" : Text) := by decide +kernel
example : quoted "'\"\n" = ("'\\'\"\\n'" : Text) := by decide +kernel
example : quoted "\x00é\u2028" = ("'\\x00é\\u2028'" : Text) := by decide +kernel

end SfcTheme.Text

import SfcTheme.Text

set_option autoImplicit false

namespace SfcTheme.Text

/-- The separators and the controls that the Unicode line and space classes treat as blank. -/
def blankRanges : List (Nat × Nat) :=
  [(0x09, 0x0D), (0x1C, 0x20), (0x85, 0x85), (0xA0, 0xA0), (0x1680, 0x1680), (0x2000, 0x200A),
   (0x2028, 0x2029), (0x202F, 0x202F), (0x205F, 0x205F), (0x3000, 0x3000)]

def isBlank (c : Char) : Bool := inRanges blankRanges c

def trimLeft (s : Text) : Text := s.dropWhile isBlank

def trimmed (s : Text) : Text := (trimLeft (trimLeft s).reverse).reverse

example : trimmed " a b\u3000\n" = ("a b" : Text) := by decide

end SfcTheme.Text

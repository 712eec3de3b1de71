import SfcTheme.Number.Shortest
import SfcTheme.Text

set_option autoImplicit false

namespace SfcTheme

namespace Decimal

def plainText (digits : Text) (exponent : Int) : Text :=
  if 0 ≤ exponent then digits ++ List.replicate exponent.toNat '0' ++ ".0"
  else
    let places := exponent.natAbs
    let padded := List.replicate (places + 1 - digits.length) '0' ++ digits
    padded.take (padded.length - places) ++ "." ++ padded.drop (padded.length - places)

def exponentText (exponent : Int) : Text :=
  let digits := Text.ofNat exponent.natAbs
  'e' :: (if exponent < 0 then '-' else '+') ::
    (List.replicate (2 - digits.length) '0' ++ digits)

def scientificText (digits : Text) (leading : Int) : Text :=
  let fraction : Text := match digits.drop 1 with
    | [] => []
    | ds => '.' :: ds
  digits.take 1 ++ fraction ++ exponentText leading

/-- `leading` is the exponent of the first digit. -/
def text (d : Decimal) : Text :=
  let digits := Text.ofNat d.digits
  let leading := d.exponent + Int.ofNat digits.length - 1
  if -4 ≤ leading ∧ leading < 16 then plainText digits d.exponent
  else scientificText digits leading

end Decimal

namespace Number

def sign (negative : Bool) : Text := if negative then ['-'] else []

def sizeText (size : Binary) : Text := if size.coefficient = 0 then "0.0" else size.shortest.text

def literal : Number → Text
  | .nan => "nan"
  | .infinite negative => sign negative ++ "inf"
  | .finite negative size => sign negative ++ sizeText size

example : (ofBits 0x8000000000000000).literal = ("-0.0" : Text) := by decide +kernel
example : (ofBits 0x3F1A36E2EB1C432D).literal = ("0.0001" : Text) := by decide +kernel
example : (ofBits 0x3EE4F8B588E368F1).literal = ("1e-05" : Text) := by decide +kernel
example : (ofBits 0x4341C37937E07FFF).literal = ("9999999999999998.0" : Text) := by decide +kernel
example : (ofBits 0x4341C37937E08000).literal = ("1e+16" : Text) := by decide +kernel

end Number

end SfcTheme

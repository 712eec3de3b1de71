import SfcTheme.Number.Literal
import SfcTheme.Text.Quoted

set_option autoImplicit false

namespace SfcTheme

inductive Datum where
  | null
  | bool (b : Bool)
  | int (n : Int)
  | number (x : Number)
  | text (s : Text)
  | list (items : List Datum)
  | record (fields : List (Text × Datum))
  deriving Inhabited

namespace Datum

mutual
def literal : Datum → Text
  | .null => "None"
  | .bool b => if b then "True" else "False"
  | .int n => Text.ofInt n
  | .number x => x.literal
  | .text s => s.quoted
  | .list items => "[" ++ List.intercalate ", " (literals items) ++ "]"
  | .record fields => "\x7b" ++ List.intercalate ", " (fieldLiterals fields) ++ "\x7d"

def literals : List Datum → List Text
  | [] => []
  | d :: ds => d.literal :: literals ds

def fieldLiterals : List (Text × Datum) → List Text
  | [] => []
  | (name, d) :: fs => (name.quoted ++ ": " ++ d.literal) :: fieldLiterals fs
end

/-- A text stands for itself where a value is written out. Anything else is in literal form. -/
def plain : Datum → Text
  | .text s => s
  | d => d.literal

end Datum

end SfcTheme

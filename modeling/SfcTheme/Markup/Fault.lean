import SfcTheme.Text.Blank
import SfcTheme.Text.Line
import SfcTheme.Text.Quoted

set_option autoImplicit false

namespace SfcTheme

/-- What is wrong with the construct that begins at a '<'. -/
inductive MarkupFault where
  | unterminatedComment
  | malformedTag
  | malformedAttributes (raw : Text)
  | unclosed (kind : Text)
  | repeated (kind : Text)
  deriving DecidableEq, Repr

def MarkupFault.message : MarkupFault → Text
  | .unterminatedComment => "Unterminated comment"
  | .malformedTag => "Malformed opening tag"
  | .malformedAttributes raw => "Malformed attributes " ++ (Text.trimmed raw).quoted
  | .unclosed kind => "Unclosed <" ++ kind ++ "> block"
  | .repeated kind => "Only one <" ++ kind ++ "> block is allowed"

structure FaultAt where
  fault : MarkupFault
  offset : Nat
  deriving DecidableEq, Repr

structure MarkupError where
  reason : Text
  line : Option Int
  column : Option Int
  deriving DecidableEq, Repr

namespace MarkupError

def message (e : MarkupError) : Text :=
  match e.line with
  | none => e.reason
  | some line =>
    let column : Text := match e.column with
      | some column => Text.ofInt column
      | none => "None"
    e.reason ++ " (line " ++ Text.ofInt line ++ ", column " ++ column ++ ")"

def ofFault (source : Text) (f : FaultAt) : MarkupError :=
  let p := Position.ofOffset source f.offset
  ⟨f.fault.message, some p.line, some p.column⟩

end MarkupError

end SfcTheme

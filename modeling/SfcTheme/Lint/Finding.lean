import SfcTheme.Text.Quoted

set_option autoImplicit false

namespace SfcTheme

inductive Severity where
  | error | warning | info
  deriving DecidableEq, Repr

namespace Severity

def label : Severity → Text
  | .error => "ERROR"
  | .warning => "WARNING"
  | .info => "INFO"

def all : List Severity := [.error, .warning, .info]

def ofLabel? (s : Text) : Option Severity := all.find? fun v => v.label == s

theorem ofLabel?_label (v : Severity) : ofLabel? v.label = some v := by cases v <;> decide

def unknownMessage (s : Text) : Text := s.quoted ++ " is not a valid Severity"

end Severity

/-- A finding. `index` is the style block that it is about, `fix` what would mend it. -/
structure Finding where
  rule : Text
  severity : Severity
  message : Text
  index : Option Int
  fix : Option Text
  deriving DecidableEq, Repr

namespace Finding

def isError (d : Finding) : Bool := d.severity = .error

def isWarning (d : Finding) : Bool := d.severity = .warning

def isInfo (d : Finding) : Bool := d.severity = .info

def line (d : Finding) : Text :=
  let place : Text := match d.index with
    | none => []
    | some i => " [style#" ++ Text.ofInt i ++ "]"
  d.severity.label ++ place ++ ": " ++ d.message

end Finding

end SfcTheme

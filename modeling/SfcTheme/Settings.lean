import SfcTheme.Datum
import SfcTheme.OrderedMap

set_option autoImplicit false

namespace SfcTheme

structure Settings where
  theme : Option Text
  debug : Bool
  deriving DecidableEq, Repr

inductive SettingsFault where
  | theme (value : Datum)
  | debug (value : Datum)

def SettingsFault.message : SettingsFault → Text
  | .theme value => "'theme' must be a string or None, got " ++ value.literal
  | .debug value => "'debug' must be a boolean, got " ++ value.literal

namespace Settings

def default : Settings := ⟨none, false⟩

def theme? : Option Datum → Except SettingsFault (Option Text)
  | none | some .null => .ok none
  | some (.text t) => .ok (some t)
  | some d => .error (.theme d)

def debug? : Option Datum → Except SettingsFault Bool
  | none => .ok false
  | some (.bool b) => .ok b
  | some d => .error (.debug d)

/-- Missing entries have their defaults and unknown ones are ignored. -/
def ofConfig (config : OrderedMap Text Datum) : Except SettingsFault Settings :=
  match theme? (config.get? "theme"), debug? (config.get? "debug") with
  | .error f, _ => .error f
  | .ok _, .error f => .error f
  | .ok theme, .ok debug => .ok ⟨theme, debug⟩

example : ofConfig .empty = .ok default := rfl

end Settings

end SfcTheme

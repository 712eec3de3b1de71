import SfcTheme.Component
import SfcTheme.Text.Line

/-!
What the active theme does to each style block. A themed block survives under its own theme alone. A
base block survives unless a block of the active theme, of its own scope class and anywhere in the
component, replaces it.
-/

set_option autoImplicit false

namespace SfcTheme

inductive Fate where
  | active (theme : Text)
  | inactive (theme : Text)
  | base
  | replaced (theme : Text)
  | replacedById (theme id : Text)
  deriving DecidableEq, Repr

namespace Fate

def suppressed : Fate → Bool
  | .active _ | .base => false
  | .inactive _ | .replaced _ | .replacedById _ _ => true

def reason : Fate → Text
  | .active theme => "active theme " ++ theme.quoted
  | .inactive theme => "inactive theme " ++ theme.quoted
  | .base => "base block"
  | .replaced theme => "replaced by theme " ++ theme.quoted
  | .replacedById theme id => "replaced by theme " ++ theme.quoted ++ " targeting id " ++ id.quoted

end Fate

namespace Style

/-- What `candidate` does to the base block `s` while `theme` is active. A bare `replace` is aimed at
every base block, one with a value at the blocks with that id. -/
def replacementBy? (s : Style) (theme : Option Text) (candidate : Style) : Option Fate :=
  match candidate.theme? with
  | none => none
  | some t =>
    if theme = some t ∧ candidate.isScoped = s.isScoped then
      match candidate.replace?, s.id? with
      | some .present, _ => some (.replaced t)
      | some (.text target), some id => if target = id then some (.replacedById t id) else none
      | _, _ => none
    else none

/-- The first replacement in the order of the siblings gives the reason. -/
def fate (s : Style) (siblings : List Style) (theme : Option Text) : Fate :=
  match s.theme? with
  | some t => if theme = some t then .active t else .inactive t
  | none => (siblings.findSome? (s.replacementBy? theme)).getD .base

def steeringNames : List Text := ["theme", "replace", "id"]

/-- A suppressed block keeps its tag and its line breaks. -/
def emitted (s : Style) (f : Fate) : Style :=
  ⟨if f.suppressed then s.content.blankedLines else s.content, s.attrs.without steeringNames⟩

end Style

structure Decision where
  index : Int
  fate : Fate
  deriving DecidableEq, Repr

namespace Decision

def describe (index : Int) (suppressed : Bool) (reason : Text) : Text :=
  let action : Text := if suppressed then "suppress" else "keep"
  let because : Text := if reason = [] then [] else " (" ++ reason ++ ")"
  "style#" ++ Text.ofInt index ++ ": " ++ action ++ because

def line (d : Decision) : Text := describe d.index d.fate.suppressed d.fate.reason

end Decision

def decisions (styles : List Style) (theme : Option Text) : List Decision :=
  styles.zipIdx.map fun (s, i) => ⟨i, s.fate styles theme⟩

namespace Component

def themed (c : Component) (theme : Option Text) : Component :=
  { c with styles := c.styles.map fun s => s.emitted (s.fate c.styles theme) }

def themedAll (c : Component) (themes : List (Option Text)) : Component := themes.foldl themed c

end Component

end SfcTheme

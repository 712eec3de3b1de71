import SfcTheme.Lint.Rule

set_option autoImplicit false

namespace SfcTheme

namespace Component

def findings (c : Component) (extra : List Rule) : List Finding :=
  (Rule.builtin.map Prod.snd ++ extra).flatMap fun rule => rule c

/-- The findings of a component without errors. The errors of any other are the refusal. -/
def verdict (c : Component) (extra : List Rule) : Except (List Finding) (List Finding) :=
  let found := c.findings extra
  match found.filter Finding.isError with
  | [] => .ok found
  | errors => .error errors

end Component

def Finding.refusalMessage (errors : List Finding) : Text :=
  "Validation failed with " ++ Text.ofNat errors.length ++ " error(s): " ++
    List.intercalate "; " (errors.map Finding.line)

end SfcTheme

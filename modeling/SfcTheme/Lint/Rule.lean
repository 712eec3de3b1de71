import SfcTheme.Component
import SfcTheme.Lint.Finding

set_option autoImplicit false

namespace SfcTheme

abbrev Rule := Component → List Finding

namespace Rule

def eachStyle (find : Style → Nat → Option Finding) (styles : List Style) :
    List Finding :=
  styles.zipIdx.filterMap fun (s, i) => find s i

def themeHasValue : Rule := fun c =>
  eachStyle (fun s i =>
    if s.attrs.has "theme" && !s.isThemed then
      some {
        rule := "check_theme_has_value"
        severity := .error
        message := "Style block has a theme attribute without a theme name."
        index := some i
        fix := some "Use theme=\"<name>\" or remove the attribute.".toList }
    else none) c.styles

/-- A block whose theme has no name is left to `themeHasValue`. -/
def replaceOnBaseBlock : Rule := fun c =>
  eachStyle (fun s i =>
    if !s.attrs.has "theme" && s.attrs.has "replace" then
      some {
        rule := "check_replace_on_base_block"
        severity := .warning
        message := "replace on a block without a theme never replaces anything."
        index := some i
        fix := some "Add a theme attribute or remove replace.".toList }
    else none) c.styles

def isTarget (target : Text) (isScoped : Bool) (s : Style) : Bool :=
  !s.isThemed && s.isScoped == isScoped && s.id? == some target

def scopeName (isScoped : Bool) : Text := if isScoped then "scoped" else "non-scoped"

def replaceTargetExists : Rule := fun c =>
  eachStyle (fun s i =>
    match s.isThemed, s.text? "replace" with
    | true, some target =>
      if c.styles.any (isTarget target s.isScoped) then none
      else some {
        rule := "check_replace_target_exists"
        severity := .warning
        message := "replace='" ++ target ++ "' does not match the id of any " ++
          scopeName s.isScoped ++ " base style block."
        index := some i
        fix := some ("Add id=\"" ++ target ++ "\" to a " ++ scopeName s.isScoped ++
          " block without a theme.") }
    | _, _ => none) c.styles

/-- `seen` holds every id so far with the index of its first block. -/
def duplicatesAfter (seen : List (Text × Nat)) (i : Nat) : List Style → List Finding
  | [] => []
  | s :: ss =>
    match s.id? with
    | none => duplicatesAfter seen (i + 1) ss
    | some id =>
      match seen.lookup id with
      | none => duplicatesAfter ((id, i) :: seen) (i + 1) ss
      | some first =>
        { rule := "check_duplicate_ids"
          severity := .warning
          message := "id '" ++ id ++ "' is already used by style#" ++ Text.ofNat first ++ "."
          index := some i
          fix := some "Give each style block a distinct id.".toList } ::
        duplicatesAfter seen (i + 1) ss

def duplicateIds : Rule := fun c => duplicatesAfter [] 0 c.styles

def builtin : List (Text × Rule) :=
  [("check_theme_has_value", themeHasValue),
   ("check_replace_on_base_block", replaceOnBaseBlock),
   ("check_replace_target_exists", replaceTargetExists),
   ("check_duplicate_ids", duplicateIds)]

end Rule

end SfcTheme

import SfcTheme.Text

/-!
Terminal control sequences: an escape and a bracket, parameters, intermediates and one final
character. What goes to a stream that is no terminal is printed without them.
-/

set_option autoImplicit false

namespace SfcTheme.Text

def isParameter (c : Char) : Bool := '0' ≤ c && c ≤ '?'

def isIntermediate (c : Char) : Bool := ' ' ≤ c && c ≤ '/'

def isFinal (c : Char) : Bool := '@' ≤ c && c ≤ '~'

def afterControl? : Text → Option Text
  | '\x1b' :: '[' :: s =>
    match (s.dropWhile isParameter).dropWhile isIntermediate with
    | c :: r => if isFinal c then some r else none
    | [] => none
  | _ => none

theorem afterControl?_length {s r : Text} (h : afterControl? s = some r) : r.length < s.length := by
  unfold afterControl? at h
  split at h
  · next t =>
    split at h
    · next c u e =>
      split at h
      · cases h
        have h₁ := (List.dropWhile_sublist (l := t.dropWhile isParameter) isIntermediate).length_le
        have h₂ := (List.dropWhile_sublist (l := t) isParameter).length_le
        rw [e] at h₁
        simp only [List.length_cons] at *
        omega
      · cases h
    · cases h
  · cases h

def withoutControls (s : Text) : Text :=
  match h : afterControl? s with
  | some r =>
    have := afterControl?_length h
    withoutControls r
  | none =>
    match s with
    | [] => []
    | c :: t => c :: withoutControls t
termination_by s.length
decreasing_by
  · exact this
  · exact Nat.lt_succ_self t.length

example : withoutControls "\x1b[31mred\x1b[0m \x1b[" = ("red \x1b[" : Text) := by decide +kernel

end SfcTheme.Text

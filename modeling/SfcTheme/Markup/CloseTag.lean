import SfcTheme.Text.Blank

set_option autoImplicit false

namespace SfcTheme

namespace CloseTag

/-- The blanks before the end of a close tag are its gap. -/
def source (kind gap : Text) : Text := "</" ++ kind ++ gap ++ ">"

def read? (kind s : Text) : Option (Text × Text) :=
  (("</" ++ kind : Text).isPrefixOf? s).bind fun t =>
    match t.dropWhile Text.isBlank with
    | '>' :: r => some (t.takeWhile Text.isBlank, r)
    | _ => none

theorem read?_sound {kind s gap r : Text} (h : read? kind s = some (gap, r)) :
    s = source kind gap ++ r := by
  obtain ⟨t, ht, hr⟩ := Option.bind_eq_some_iff.1 h
  split at hr
  · next u e =>
    cases hr
    have ht' := List.takeWhile_append_dropWhile (p := Text.isBlank) (l := t)
    rw [e] at ht'
    calc
      s = "</" ++ kind ++ t := Text.eq_append_of_isPrefixOf? ht
      _ = "</" ++ kind ++ (t.takeWhile Text.isBlank ++ '>' :: r) := by rw [ht']
      _ = source kind (t.takeWhile Text.isBlank) ++ r := by simp [source]
  · cases hr

def first? (kind s : Text) : Option (Text × Text × Text) := Text.firstRead (read? kind) s

theorem first?_sound {kind s content gap r : Text} (h : first? kind s = some (content, gap, r)) :
    s = content ++ source kind gap ++ r := by
  obtain ⟨t, rfl, ht⟩ := Text.firstRead_sound h
  rw [read?_sound ht, List.append_assoc]

end CloseTag

end SfcTheme

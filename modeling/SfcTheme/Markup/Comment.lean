import SfcTheme.Text

/-!
Comments. The dashes that open a comment are none of those that close it.
-/

set_option autoImplicit false

namespace SfcTheme

namespace Comment

def opener : Text := "<!--"

def closer : Text := "-->"

def source (body : Text) : Text := opener ++ body ++ closer

/-- What stands after the opening of a comment: the text in it and the text behind it. -/
def body? (s : Text) : Option (Text × Text) := Text.firstRead closer.isPrefixOf? s

theorem body?_sound {s body r : Text} (h : body? s = some (body, r)) :
    s = body ++ closer ++ r := by
  obtain ⟨t, rfl, ht⟩ := Text.firstRead_sound h
  rw [Text.eq_append_of_isPrefixOf? ht, List.append_assoc]

def read? (s : Text) : Option (Text × Text) := (opener.isPrefixOf? s).bind body?

theorem read?_sound {s body r : Text} (h : read? s = some (body, r)) :
    s = source body ++ r := by
  obtain ⟨t, ht, hr⟩ := Option.bind_eq_some_iff.1 h
  rw [Text.eq_append_of_isPrefixOf? ht, body?_sound hr]
  simp [source]

example : read? "<!-->-->b" = some (['>'], ['b']) := by decide
example : read? "<!-->" = none := by decide

end Comment

end SfcTheme

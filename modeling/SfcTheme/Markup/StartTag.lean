import SfcTheme.Text.Blank

/-!
Start tags. A name runs from a letter to the next blank, slash or '>', and the tag ends at the first
'>' outside quotes. Where an unpaired quote leaves no such end, the name gives characters back, so
that a quote inside it may open a quoted text instead.
-/

set_option autoImplicit false

namespace SfcTheme

def isQuote (c : Char) : Bool := c == '"' || c == '\x27'

/-- The text before the first '>' outside quotes and the text after it. The first argument is the
quote that is open, if one is. -/
def untilTagEnd : Option Char → Text → Option (Text × Text)
  | _, [] => none
  | none, c :: s =>
    if c = '>' then some ([], s)
    else (untilTagEnd (if isQuote c then some c else none) s).map fun r => (c :: r.1, r.2)
  | some q, c :: s =>
    (untilTagEnd (if c = q then none else some q) s).map fun r => (c :: r.1, r.2)

theorem untilTagEnd_sound {q : Option Char} {s inside r : Text}
    (h : untilTagEnd q s = some (inside, r)) : s = inside ++ '>' :: r := by
  induction s generalizing q inside with
  | nil => cases q <;> simp [untilTagEnd] at h
  | cons c s ih =>
    cases q with
    | none =>
      unfold untilTagEnd at h
      split at h
      · next hc => cases h; simp [hc]
      · obtain ⟨⟨i, t⟩, hi, e⟩ := Option.map_eq_some_iff.1 h
        cases e
        rw [ih hi, List.cons_append]
    | some q =>
      obtain ⟨⟨i, t⟩, hi, e⟩ := Option.map_eq_some_iff.1 h
      cases e
      rw [ih hi, List.cons_append]

structure StartTag where
  name : Text
  raw : Text
  selfClosing : Bool
  deriving DecidableEq, Repr

namespace StartTag

def isNameStart (c : Char) : Bool := c.isAlpha

def isNameChar (c : Char) : Bool := !Text.isBlank c && c != '/' && c != '>'

/-- A slash before the end closes the tag and belongs to no attribute. -/
def ofInside (name inside : Text) : StartTag :=
  if inside.getLast? = some '/' then ⟨name, inside.dropLast, true⟩ else ⟨name, inside, false⟩

def inside (t : StartTag) : Text := if t.selfClosing then t.raw ++ ['/'] else t.raw

@[simp] theorem inside_ofInside (name i : Text) : (ofInside name i).inside = i := by
  unfold ofInside
  split
  · next h =>
    obtain ⟨l, rfl⟩ := List.getLast?_eq_some_iff.1 h
    simp [inside]
  · simp [inside]

@[simp] theorem name_ofInside (name i : Text) : (ofInside name i).name = name := by
  unfold ofInside; split <;> rfl

def source (t : StartTag) : Text := '<' :: (t.name ++ t.inside ++ ['>'])

/-- The longest start of a text, of name characters alone, after which a tag can end: with it come
the rest of the tag and what follows the tag. -/
def longestName : Text → Option (Text × Text × Text)
  | [] => none
  | c :: s =>
    match if isNameChar c then longestName s else none with
    | some (name, rest) => some (c :: name, rest)
    | none => (untilTagEnd none (c :: s)).map fun rest => ([], rest)

theorem longestName_sound {s name inside r : Text} (h : longestName s = some (name, inside, r)) :
    s = name ++ inside ++ '>' :: r := by
  induction s generalizing name with
  | nil => cases h
  | cons c s ih =>
    unfold longestName at h
    split at h
    · next n rest e =>
      cases h
      split at e
      · rw [ih e]; simp
      · cases e
    · obtain ⟨⟨i, t⟩, hi, e⟩ := Option.map_eq_some_iff.1 h
      cases e
      rw [untilTagEnd_sound hi, List.nil_append]

def read? : Text → Option (StartTag × Text)
  | '<' :: c :: s =>
    if isNameStart c then
      (longestName s).map fun (name, inside, r) => (ofInside (c :: name) inside, r)
    else none
  | _ => none

theorem read?_sound {s r : Text} {t : StartTag} (h : read? s = some (t, r)) :
    s = t.source ++ r := by
  unfold read? at h
  split at h
  · split at h
    · obtain ⟨⟨n, i, u⟩, hn, e⟩ := Option.map_eq_some_iff.1 h
      cases e
      rw [longestName_sound hn]
      simp [source]
    · cases h
  · cases h

example : read? "<a b='>'/>c" = some (StartTag.mk "a" " b='>'" true, ['c']) := by decide
example : read? "<a\"b\">" = some (StartTag.mk "a\"b\"" [] false, []) := by decide
example : read? "<a\"b c\">" = some (StartTag.mk "a" "\"b c\"" false, []) := by decide

end StartTag

end SfcTheme

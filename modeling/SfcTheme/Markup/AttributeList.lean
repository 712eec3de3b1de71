import SfcTheme.Component
import SfcTheme.Text.Blank

/-!
The attributes in a start tag. Items stand between gaps of the five ASCII blanks. Any other blank is
neither a gap nor part of an item, so it makes the list malformed.
-/

set_option autoImplicit false

namespace SfcTheme

namespace AttributeList

def isGap (c : Char) : Bool := c == ' ' || c == '\t' || c == '\x0c' || c == '\r' || c == '\n'

def isNameChar (c : Char) : Bool :=
  !Text.isBlank c && c != '"' && c != '\x27' && c != '<' && c != '>' && c != '/' && c != '='

def isBareChar (c : Char) : Bool :=
  !Text.isBlank c && c != '"' && c != '\x27' && c != '=' && c != '<' && c != '>' && c != '\x60'

def skipGap (s : Text) : Text := s.dropWhile isGap

theorem length_skipGap_le (s : Text) : (skipGap s).length ≤ s.length :=
  (List.dropWhile_sublist isGap).length_le

inductive Value where
  | doubleQuoted (s : Text)
  | singleQuoted (s : Text)
  | bare (s : Text)
  deriving DecidableEq, Repr

def Value.content : Value → Text
  | .doubleQuoted s | .singleQuoted s | .bare s => s

def untilQuote (quote : Char) : Text → Option (Text × Text)
  | [] => none
  | c :: s => if c = quote then some ([], s) else (untilQuote quote s).map fun r => (c :: r.1, r.2)

theorem untilQuote_length {q : Char} {s v r : Text} (h : untilQuote q s = some (v, r)) :
    r.length < s.length := by
  induction s generalizing v with
  | nil => cases h
  | cons c s ih =>
    simp only [untilQuote] at h
    split at h
    · cases h; simp
    · obtain ⟨⟨i, t⟩, hi, e⟩ := Option.map_eq_some_iff.1 h
      cases e
      exact Nat.lt_succ_of_lt (ih hi)

def Value.read? : Text → Option (Value × Text)
  | [] => none
  | c :: s =>
    if c = '"' then (untilQuote '"' s).map fun r => (.doubleQuoted r.1, r.2)
    else if c = '\x27' then (untilQuote '\x27' s).map fun r => (.singleQuoted r.1, r.2)
    else if isBareChar c then
      some (.bare ((c :: s).takeWhile isBareChar), (c :: s).dropWhile isBareChar)
    else none

theorem length_dropWhile_cons {p : Char → Bool} {c : Char} {s : Text} (h : p c = true) :
    ((c :: s).dropWhile p).length < (c :: s).length := by
  rw [List.dropWhile_cons_of_pos h, List.length_cons]
  exact Nat.lt_succ_of_le (List.dropWhile_sublist p).length_le

theorem Value.read?_length {s r : Text} {v : Value} (h : Value.read? s = some (v, r)) :
    r.length < s.length := by
  cases s with
  | nil => cases h
  | cons c s =>
    simp only [Value.read?] at h
    split at h
    · obtain ⟨⟨i, t⟩, hi, e⟩ := Option.map_eq_some_iff.1 h
      cases e
      exact Nat.lt_succ_of_lt (untilQuote_length hi)
    · split at h
      · obtain ⟨⟨i, t⟩, hi, e⟩ := Option.map_eq_some_iff.1 h
        cases e
        exact Nat.lt_succ_of_lt (untilQuote_length hi)
      · split at h
        · next hc => cases h; exact length_dropWhile_cons hc
        · cases h

structure Item where
  name : Text
  value : Option Value
  deriving DecidableEq, Repr

/-- A name that no equals sign follows is an item of its own, and the gap after it is not read. -/
def Item.read? : Text → Option (Item × Text)
  | [] => none
  | c :: s =>
    if isNameChar c then
      let name := (c :: s).takeWhile isNameChar
      let rest := (c :: s).dropWhile isNameChar
      match skipGap rest with
      | '=' :: r => (Value.read? (skipGap r)).map fun v => (⟨name, some v.1⟩, v.2)
      | _ => some (⟨name, none⟩, rest)
    else none

theorem Item.read?_length {s r : Text} {i : Item} (h : Item.read? s = some (i, r)) :
    r.length < s.length := by
  cases s with
  | nil => cases h
  | cons c s =>
    simp only [Item.read?] at h
    split at h
    · next hc =>
      have hd := length_dropWhile_cons (s := s) hc
      split at h
      · next t e =>
        obtain ⟨⟨v, u⟩, hv, e'⟩ := Option.map_eq_some_iff.1 h
        cases e'
        have h₁ := Value.read?_length hv
        have h₂ := length_skipGap_le t
        have h₃ := length_skipGap_le ((c :: s).dropWhile isNameChar)
        rw [e, List.length_cons] at h₃
        change u.length < (c :: s).length
        omega
      · cases h; exact hd
    · cases h

def items? (s : Text) : Option (List Item) :=
  match hs : skipGap s with
  | [] => some []
  | c :: t =>
    match h : Item.read? (c :: t) with
    | none => none
    | some (i, r) =>
      have : r.length < s.length :=
        Nat.lt_of_lt_of_le (Item.read?_length h) (hs ▸ length_skipGap_le s)
      (items? r).map (i :: ·)
termination_by s.length
decreasing_by exact this

/-- An empty value is no value: the attribute is present. -/
def Item.value? (i : Item) : AttrValue :=
  match i.value.map Value.content with
  | none | some [] => .present
  | some v => .text v

def read? (raw : Text) : Option Attrs :=
  (items? raw).map fun is => OrderedMap.ofList (is.map fun i => (i.name, i.value?))

end AttributeList

end SfcTheme

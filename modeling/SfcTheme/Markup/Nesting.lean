import SfcTheme.Markup.CloseTag
import SfcTheme.Markup.Comment
import SfcTheme.Markup.StartTag

/-!
Templates nest in themselves. Their content is cut into comments, template tags and single other
characters, and the end of a template is the close tag that balances the open ones.
-/

set_option autoImplicit false

namespace SfcTheme

/-- What a template's content is made of. An open tag keeps the text between its name and its end,
a close tag the blanks before its end. -/
inductive Lexeme where
  | plain (c : Char)
  | comment (body : Text)
  | opening (inside : Text)
  | closing (gap : Text)
  deriving DecidableEq, Repr

namespace Lexeme

def kind : Text := "template"

def opener : Text := '<' :: kind

def source : Lexeme → Text
  | .plain c => [c]
  | .comment body => Comment.source body
  | .opening inside => opener ++ inside ++ ['>']
  | .closing gap => CloseTag.source kind gap

/-- A name that runs on is another name, so a tag opens only before a blank, a slash or its end. -/
def endsName : Text → Bool
  | [] => false
  | c :: _ => Text.isBlank c || c == '/' || c == '>'

def opening? (s : Text) : Option (Text × Text) :=
  (opener.isPrefixOf? s).bind fun t => if endsName t then untilTagEnd none t else none

theorem opening?_sound {s inside r : Text} (h : opening? s = some (inside, r)) :
    s = (opening inside).source ++ r := by
  obtain ⟨t, ht, hr⟩ := Option.bind_eq_some_iff.1 h
  split at hr
  · rw [Text.eq_append_of_isPrefixOf? ht, untilTagEnd_sound hr]
    simp [source]
  · cases hr

def token? (s : Text) : Option (Lexeme × Text) :=
  match Comment.read? s with
  | some (body, r) => some (.comment body, r)
  | none =>
    match CloseTag.read? kind s with
    | some (gap, r) => some (.closing gap, r)
    | none => (opening? s).map fun (inside, r) => (.opening inside, r)

theorem token?_sound {s r : Text} {l : Lexeme} (h : token? s = some (l, r)) :
    s = l.source ++ r := by
  unfold token? at h
  split at h
  · next hc => cases h; exact Comment.read?_sound hc
  · split at h
    · next hc => cases h; exact CloseTag.read?_sound hc
    · obtain ⟨⟨i, t⟩, hi, e⟩ := Option.map_eq_some_iff.1 h
      cases e
      exact opening?_sound hi

theorem source_ne_nil (l : Lexeme) : l.source ≠ [] := by
  cases l <;> simp [source, Comment.source, Comment.opener, CloseTag.source, opener]

theorem token?_length {s r : Text} {l : Lexeme} (h : token? s = some (l, r)) :
    r.length < s.length := by
  rw [token?_sound h, List.length_append]
  have := List.length_pos_iff.2 l.source_ne_nil
  omega

def sources (ls : List Lexeme) : Text := ls.flatMap source

@[simp] theorem sources_nil : sources [] = [] := rfl

@[simp] theorem sources_cons (l : Lexeme) (ls : List Lexeme) :
    sources (l :: ls) = l.source ++ sources ls := rfl

@[simp] theorem sources_append (ls ms : List Lexeme) :
    sources (ls ++ ms) = sources ls ++ sources ms := List.flatMap_append

def ofText (s : Text) : List Lexeme :=
  match s with
  | [] => []
  | c :: t =>
    match h : token? (c :: t) with
    | some (l, r) =>
      have := token?_length h
      l :: ofText r
    | none => .plain c :: ofText t
termination_by s.length
decreasing_by
  · exact this
  · exact Nat.lt_succ_self t.length

theorem sources_ofText (s : Text) : sources (ofText s) = s := by
  fun_induction ofText s with
  | case1 => rfl
  | case2 c t l r h _ ih => rw [sources_cons, ih, ← token?_sound h]
  | case3 c t h ih => rw [sources_cons, ih]; rfl

def isSelfClosing (inside : Text) : Bool := inside.getLast? == some '/'

/-- The lexemes up to the close tag that balances `depth` open ones and the one before them, the
gap of that tag, and the lexemes after it. -/
def untilBalanced : Nat → List Lexeme → Option (List Lexeme × Text × List Lexeme)
  | _, [] => none
  | 0, .closing gap :: ls => some ([], gap, ls)
  | depth + 1, .closing gap :: ls => (untilBalanced depth ls).map fun r => (.closing gap :: r.1, r.2)
  | depth, .opening inside :: ls =>
    (untilBalanced (if isSelfClosing inside then depth else depth + 1) ls).map fun r =>
      (.opening inside :: r.1, r.2)
  | depth, l :: ls => (untilBalanced depth ls).map fun r => (l :: r.1, r.2)

theorem untilBalanced_sound {depth : Nat} {ls ms rest : List Lexeme} {gap : Text}
    (h : untilBalanced depth ls = some (ms, gap, rest)) : ls = ms ++ .closing gap :: rest := by
  fun_induction untilBalanced depth ls generalizing ms with
  | case1 => cases h
  | case2 => cases h; rfl
  | case3 | case4 | case5 =>
    rename_i ih
    obtain ⟨⟨a, b⟩, hr, e⟩ := Option.map_eq_some_iff.1 h
    cases e
    rw [ih hr, List.cons_append]

end Lexeme

def templateEnd? (s : Text) : Option (Text × Text × Text) :=
  (Lexeme.untilBalanced 0 (Lexeme.ofText s)).map fun (ls, gap, rest) =>
    (Lexeme.sources ls, gap, Lexeme.sources rest)

theorem templateEnd?_sound {s content gap r : Text} (h : templateEnd? s = some (content, gap, r)) :
    s = content ++ CloseTag.source Lexeme.kind gap ++ r := by
  obtain ⟨⟨ls, g, rest⟩, hb, e⟩ := Option.map_eq_some_iff.1 h
  cases e
  rw [← Lexeme.sources_ofText s, Lexeme.untilBalanced_sound hb]
  simp [Lexeme.source]

end SfcTheme

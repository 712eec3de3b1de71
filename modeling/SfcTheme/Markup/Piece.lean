import SfcTheme.Markup.AttributeList
import SfcTheme.Markup.Fault
import SfcTheme.Markup.Nesting
import SfcTheme.Text.Letter

set_option autoImplicit false

namespace SfcTheme

/-- The gap of a block is what stands before the end of its close tag. -/
inductive Piece where
  | text (s : Text)
  | stray
  | comment (body : Text)
  | selfClosing (tag : StartTag) (attrs : Attrs)
  | block (tag : StartTag) (attrs : Attrs) (content gap : Text)
  deriving DecidableEq

namespace Piece

def source : Piece → Text
  | .text s => s
  | .stray => ['<']
  | .comment body => Comment.source body
  | .selfClosing tag _ => tag.source
  | .block tag _ content gap => tag.source ++ content ++ CloseTag.source tag.name gap

def blockEnd? (kind s : Text) : Option (Text × Text × Text) :=
  if kind = Lexeme.kind then templateEnd? s else CloseTag.first? kind s

theorem blockEnd?_sound {kind s content gap r : Text}
    (h : blockEnd? kind s = some (content, gap, r)) :
    s = content ++ CloseTag.source kind gap ++ r := by
  unfold blockEnd? at h
  split at h
  · next hk => rw [hk]; exact templateEnd?_sound h
  · exact CloseTag.first?_sound h

def ofTag (tag : StartTag) (s : Text) : Except MarkupFault (Piece × Text) :=
  match AttributeList.read? tag.raw with
  | none => .error (.malformedAttributes tag.raw)
  | some attrs =>
    if tag.selfClosing then .ok (.selfClosing tag attrs, s)
    else match blockEnd? tag.name s with
      | none => .error (.unclosed tag.name)
      | some (content, gap, r) => .ok (.block tag attrs content gap, r)

theorem ofTag_sound {tag : StartTag} {s r : Text} {p : Piece} (h : ofTag tag s = .ok (p, r)) :
    tag.source ++ s = p.source ++ r := by
  unfold ofTag at h
  split at h
  · cases h
  · split at h
    · cases h; rfl
    · split at h
      · cases h
      · next e =>
        cases h
        rw [blockEnd?_sound e]
        simp [source]

/-- A letter after a '<' that opens no tag is a fault, and anything else makes the '<' stray. -/
def ofStray : Text → Except MarkupFault (Piece × Text)
  | [] => .ok (.stray, [])
  | c :: s => if Text.isLetter c then .error .malformedTag else .ok (.stray, c :: s)

theorem ofStray_sound {s r : Text} {p : Piece} (h : ofStray s = .ok (p, r)) :
    '<' :: s = p.source ++ r := by
  cases s with
  | nil => cases h; rfl
  | cons c s =>
    simp only [ofStray] at h
    split at h
    · cases h
    · cases h; rfl

def next (c : Char) (s : Text) : Except MarkupFault (Piece × Text) :=
  if c = '<' then
    match Comment.opener.isPrefixOf? (c :: s) with
    | some t =>
      match Comment.body? t with
      | some (body, r) => .ok (.comment body, r)
      | none => .error .unterminatedComment
    | none =>
      match StartTag.read? (c :: s) with
      | some (tag, r) => ofTag tag r
      | none => ofStray s
  else .ok (.text (c :: s.takeWhile (· != '<')), s.dropWhile (· != '<'))

theorem next_sound {c : Char} {s r : Text} {p : Piece} (h : next c s = .ok (p, r)) :
    c :: s = p.source ++ r := by
  unfold next at h
  split at h
  · next hc =>
    split at h
    · next t ht =>
      split at h
      · next hb =>
        cases h
        rw [Text.eq_append_of_isPrefixOf? ht, Comment.body?_sound hb]
        simp [source, Comment.source]
      · cases h
    · split at h
      · next ht => rw [StartTag.read?_sound ht]; exact ofTag_sound h
      · rw [hc]; exact ofStray_sound h
  · cases h
    simp [source]

theorem source_next_ne_nil {c : Char} {s r : Text} {p : Piece} (h : next c s = .ok (p, r)) :
    p.source ≠ [] := by
  unfold next at h
  split at h
  · split at h
    · split at h
      · cases h; simp [source, Comment.source, Comment.opener]
      · cases h
    · split at h
      · unfold ofTag at h
        split at h
        · cases h
        · split at h
          · cases h; simp [source, StartTag.source]
          · split at h
            · cases h
            · cases h; simp [source, StartTag.source]
      · cases s with
        | nil => cases h; simp [source]
        | cons d s =>
          simp only [ofStray] at h
          split at h
          · cases h
          · cases h; simp [source]
  · cases h; simp [source]

theorem next_length {c : Char} {s r : Text} {p : Piece} (h : next c s = .ok (p, r)) :
    r.length < (c :: s).length := by
  rw [next_sound h, List.length_append]
  have := List.length_pos_iff.2 (source_next_ne_nil h)
  omega

def singletons : List Text := ["template", "script"]

def kind? : Piece → Option Text
  | .selfClosing tag _ | .block tag _ _ _ => some tag.name
  | _ => none

def singleton? (p : Piece) : Option Text := p.kind?.filter singletons.contains

def sources (ps : List Piece) : Text := ps.flatMap source

/-- The pieces of a source that follows blocks of the kinds `taken`. -/
def ofTextAfter (taken : List Text) (s : Text) : Except FaultAt (List Piece) :=
  match s with
  | [] => .ok []
  | c :: t =>
    match h : next c t with
    | .error f => .error ⟨f, 0⟩
    | .ok (p, r) =>
      have := next_length h
      match p.singleton?.filter taken.contains with
      | some kind => .error ⟨.repeated kind, 0⟩
      | none =>
        match ofTextAfter (p.singleton?.toList ++ taken) r with
        | .error e => .error ⟨e.fault, p.source.length + e.offset⟩
        | .ok ps => .ok (p :: ps)
termination_by s.length
decreasing_by exact this

def ofText (s : Text) : Except FaultAt (List Piece) := ofTextAfter [] s

end Piece

end SfcTheme

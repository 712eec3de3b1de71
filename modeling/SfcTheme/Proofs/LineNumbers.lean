import Mathlib.Data.List.Forall2
import SfcTheme.Proofs.FixedPoint

set_option autoImplicit false

namespace SfcTheme

open Text (newlines)

theorem Attribute.newlines_source_filter {p : Text × AttrValue → Bool}
    {es : List (Text × AttrValue)} (h : ∀ e ∈ es, p e = false → newlines (source e) = 0) :
    newlines ((es.filter p).flatMap source) = newlines (es.flatMap source) := by
  induction es with
  | nil => rfl
  | cons e es ih =>
    obtain ⟨he, hes⟩ := List.forall_mem_cons.1 h
    cases hp : p e with
    | true => simp [hp, ih hes]
    | false => simp [hp, ih hes, he hp]

theorem Attrs.newlines_source_without {as : Attrs} {excluded : List Text}
    (h : ∀ e ∈ as.entries, e.1 ∈ excluded → newlines (Attribute.source e) = 0) :
    newlines (Attrs.source (as.without excluded)) = newlines as.source := by
  rw [source, source, OrderedMap.without]
  exact Attribute.newlines_source_filter fun e he hp => h e he (by simpa using hp)

namespace Style

def openTag (s : Style) : Text := ('<' :: kind) ++ s.attrs.source ++ ['>']

theorem sectionText_eq (s : Style) :
    s.toBlock.sectionText = s.openTag ++ (s.content ++ (s.toBlock.closeTag ++ ['\n'])) := by
  simp [Block.sectionText, Block.source, Block.closeTag, CloseTag.source, openTag, toBlock]

/-- As many line breaks among the attributes, and as many in the content. -/
structure SameLines (s t : Style) : Prop where
  attrs : newlines s.attrs.source = newlines t.attrs.source
  content : newlines s.content = newlines t.content

theorem SameLines.newlines_openTag {s t : Style} (h : s.SameLines t) :
    newlines s.openTag = newlines t.openTag := by
  simp only [openTag, Text.newlines_append, h.attrs]

theorem SameLines.newlines_sectionText {s t : Style} (h : s.SameLines t) :
    newlines s.toBlock.sectionText = newlines t.toBlock.sectionText := by
  have hc : s.toBlock.closeTag = t.toBlock.closeTag := rfl
  simp only [sectionText_eq, Text.newlines_append, h.newlines_openTag, h.content, hc]

theorem newlines_content_emitted (s : Style) (f : Fate) :
    newlines (s.emitted f).content = newlines s.content := by
  unfold emitted
  split
  · exact Text.newlines_blankedLines _
  · rfl

theorem sameLines_emitted (s : Style) (f g : Fate) : (s.emitted f).SameLines (s.emitted g) where
  attrs := rfl
  content := by rw [newlines_content_emitted, newlines_content_emitted]

/-- No value that steers theming has a line break. -/
def SteersInLine (s : Style) : Prop := ∀ name ∈ steeringNames, ∀ v ∈ s.text? name, '\n' ∉ v

instance (s : Style) : Decidable s.SteersInLine :=
  inferInstanceAs (Decidable (∀ name ∈ steeringNames, ∀ v ∈ s.text? name, '\n' ∉ v))

theorem SteersInLine.newlines_attribute {s : Style} (h : s.SteersInLine) {e : Text × AttrValue}
    (he : e ∈ s.attrs.entries) (hn : e.1 ∈ steeringNames) : newlines (Attribute.source e) = 0 := by
  obtain ⟨name, value⟩ := e
  have hname : newlines name = 0 := by
    have key : ∀ name ∈ steeringNames, newlines name = 0 := by decide
    exact key name hn
  cases value with
  | present => simpa [Attribute.source, newlines] using hname
  | text v =>
    have hv : v ∈ s.text? name := by
      rw [text?, OrderedMap.get?_of_mem he]
      rfl
    have hv : newlines v = 0 := List.count_eq_zero.2 (h name hn v hv)
    have hs : Attribute.source (name, .text v) = [' '] ++ name ++ ['=', '"'] ++ v ++ ['"'] := rfl
    simp only [hs, Text.newlines_append, hname, hv]
    rfl

theorem SteersInLine.sameLines_emitted {s : Style} (h : s.SteersInLine) (f : Fate) :
    (s.emitted f).SameLines s where
  attrs := Attrs.newlines_source_without fun _ he hn => h.newlines_attribute he hn
  content := s.newlines_content_emitted f

end Style

namespace Component

def styleStart : List Style → Nat → Text
  | [], _ => []
  | s :: _, 0 => s.openTag
  | s :: ss, i + 1 => s.toBlock.sectionText ++ (['\n'] ++ styleStart ss i)

theorem styleSource_eq {ss : List Style} {i : Nat} {s : Style} (h : ss[i]? = some s) :
    ∃ behind, styleSource ss =
      styleStart ss i ++ (s.content ++ (s.toBlock.closeTag ++ behind)) := by
  induction ss generalizing i with
  | nil => cases h
  | cons t ss ih =>
    cases i with
    | zero =>
      obtain rfl : t = s := by simpa using h
      by_cases hn : ss = []
      · exact ⟨['\n'], by rw [hn, styleSource_singleton, Style.sectionText_eq]; rfl⟩
      · refine ⟨'\n' :: '\n' :: styleSource ss, ?_⟩
        rw [styleSource_cons hn, Style.sectionText_eq]
        simp [styleStart]
    | succ i =>
      have h : ss[i]? = some s := by simpa using h
      have hn : ss ≠ [] := by
        intro e
        rw [e] at h
        cases h
      obtain ⟨behind, hb⟩ := ih h
      exact ⟨behind, by rw [styleSource_cons hn, hb, styleStart]; simp⟩

def beforeStyles (c : Component) : Text :=
  customSource c.customBlocks ++ slotSource c.template ++ slotSource c.script

def contentStart (c : Component) (i : Nat) : Text := c.beforeStyles ++ styleStart c.styles i

theorem newlines_styleSource {ss tt : List Style} (h : List.Forall₂ Style.SameLines ss tt) :
    newlines (styleSource ss) = newlines (styleSource tt) := by
  induction h with
  | nil => rfl
  | @cons s t ss tt hs hss ih =>
    by_cases hn : ss = []
    · subst hn
      cases hss
      simp only [styleSource_singleton, hs.newlines_sectionText]
    · have hm : tt ≠ [] := fun e => hn (by subst e; cases hss; rfl)
      simp only [styleSource_cons hn, styleSource_cons hm, Text.newlines_append,
        hs.newlines_sectionText, ih]

theorem newlines_styleStart {ss tt : List Style} (h : List.Forall₂ Style.SameLines ss tt)
    (i : Nat) : newlines (styleStart ss i) = newlines (styleStart tt i) := by
  induction h generalizing i with
  | nil => rfl
  | cons hs _ ih =>
    cases i with
    | zero => exact hs.newlines_openTag
    | succ i => simp only [styleStart, Text.newlines_append, hs.newlines_sectionText, ih i]

/-- Two sources with the same text in front of their style sections and the content of each style
block on the same lines. -/
structure LinesAgree (a b : Component) : Prop where
  beforeStyles : ∃ before, a.source = before ++ styleSource a.styles ∧
    b.source = before ++ styleSource b.styles
  source : newlines a.source = newlines b.source
  length : a.styles.length = b.styles.length
  contents : ∀ (i : Nat) (s t : Style), a.styles[i]? = some s → b.styles[i]? = some t →
    (∃ behind, a.source = a.contentStart i ++ (s.content ++ (s.toBlock.closeTag ++ behind))) ∧
    (∃ behind, b.source = b.contentStart i ++ (t.content ++ (t.toBlock.closeTag ++ behind))) ∧
    newlines (a.contentStart i) = newlines (b.contentStart i) ∧
    newlines s.content = newlines t.content

theorem source_eq_beforeStyles (c : Component) : c.source = c.beforeStyles ++ styleSource c.styles :=
  rfl

theorem source_eq_contentStart {c : Component} {i : Nat} {s : Style} (h : c.styles[i]? = some s) :
    ∃ behind, c.source = c.contentStart i ++ (s.content ++ (s.toBlock.closeTag ++ behind)) := by
  obtain ⟨behind, hb⟩ := styleSource_eq h
  exact ⟨behind, by rw [source_eq_beforeStyles, hb, contentStart, List.append_assoc]⟩

theorem linesAgree_of_sameLines {a b : Component} (hb : a.beforeStyles = b.beforeStyles)
    (h : List.Forall₂ Style.SameLines a.styles b.styles) : a.LinesAgree b where
  beforeStyles := ⟨a.beforeStyles, rfl, by rw [hb, source_eq_beforeStyles]⟩
  source := by
    simp only [source_eq_beforeStyles, Text.newlines_append, hb, newlines_styleSource h]
  length := h.length_eq
  contents i s t hs ht := by
    refine ⟨source_eq_contentStart hs, source_eq_contentStart ht, ?_, ?_⟩
    · simp only [contentStart, Text.newlines_append, hb, newlines_styleStart h i]
    · obtain ⟨hi, rfl⟩ := List.getElem?_eq_some_iff.1 hs
      obtain ⟨hj, rfl⟩ := List.getElem?_eq_some_iff.1 ht
      exact ((List.forall₂_iff_get.1 h).2 i hi hj).content

theorem sameLines_themed (c : Component) (t u : Option Text) :
    List.Forall₂ Style.SameLines (c.themed t).styles (c.themed u).styles := by
  simp only [themed, List.forall₂_map_left_iff, List.forall₂_map_right_iff, List.forall₂_same]
  exact fun s _ => s.sameLines_emitted _ _

theorem sameLines_themed_self {c : Component} (h : ∀ s ∈ c.styles, s.SteersInLine)
    (t : Option Text) : List.Forall₂ Style.SameLines (c.themed t).styles c.styles := by
  simp only [themed, List.forall₂_map_left_iff, List.forall₂_same]
  exact fun s hs => (h s hs).sameLines_emitted _

theorem content_themed {c : Component} {t : Option Text} {i : Nat} {s : Style}
    (h : c.styles[i]? = some s) (hk : (s.fate c.styles t).suppressed = false) :
    (c.themed t).styles[i]?.map Style.content = some s.content := by
  simp [themed, h, Style.emitted, hk]

/-- Whatever the theme, every style block has its content on the same lines, and what two themes
keep is the same text there. Those are the lines of the component itself, unless a value that steers
theming has a line break, which goes with it. -/
theorem linesAgree_themed (c : Component) (t u : Option Text) :
    (c.themed t).LinesAgree (c.themed u) ∧
      (∀ (i : Nat) (s : Style), c.styles[i]? = some s →
        (s.fate c.styles t).suppressed = false → (s.fate c.styles u).suppressed = false →
        (c.themed t).styles[i]?.map Style.content = some s.content ∧
          (c.themed u).styles[i]?.map Style.content = some s.content) ∧
      ((∀ s ∈ c.styles, s.SteersInLine) → (c.themed t).LinesAgree c) := by
  refine ⟨linesAgree_of_sameLines rfl (c.sameLines_themed t u), fun i s h ht hu => ?_, fun h => ?_⟩
  · exact ⟨content_themed h ht, content_themed h hu⟩
  · exact linesAgree_of_sameLines rfl (sameLines_themed_self h t)

/-- Values over two lines that stay, and blocks that both themes keep, and one, and the other. -/
theorem linesAgree_themed_two_themes :
    let kept : Style := ⟨"\np\n\n", .ofList [("media", .text "x\ny"), ("theme", .present)]⟩
    let c : Component := ⟨some ⟨"template", "\n", .empty⟩, none,
      [kept, ⟨"q\n", .ofList [("id", .text ['a'])]⟩,
        ⟨"\nr", .ofList [("theme", .text ['d']), ("replace", .text ['a'])]⟩,
        ⟨"\n\ns", .ofList [("theme", .text ['l']), ("lang", .text "\n")]⟩],
      [⟨"docs", "\n", .empty⟩]⟩
    (c.themed (some ['d'])).LinesAgree (c.themed (some ['l'])) ∧
      (c.themed (some ['d'])).styles[0]?.map Style.content = some kept.content ∧
      (c.themed (some ['l'])).styles[0]?.map Style.content = some kept.content ∧
      (c.themed (some ['d'])).LinesAgree c ∧ newlines (c.contentStart 3) = 20 := by
  intro kept c
  obtain ⟨hd, hk, hc⟩ := linesAgree_themed c (some ['d']) (some ['l'])
  obtain ⟨hkd, hkl⟩ := hk 0 kept rfl (by decide +kernel) (by decide +kernel)
  exact ⟨hd, hkd, hkl, hc (by decide +kernel), by decide +kernel⟩

end Component

end SfcTheme

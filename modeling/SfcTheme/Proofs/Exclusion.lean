import Mathlib.Data.List.Forall2
import SfcTheme.Markup.Writer
import SfcTheme.Proofs.Resolution

/-!
What a theme leaves out does not reach the output. Two components give the same text if they differ
only in what a block of another theme holds, names, replaces or is called, and in what a replaced
block holds. Line counts alone come through.
-/

set_option autoImplicit false

namespace SfcTheme

open Text (newlines)

theorem Text.blankedLines_congr {s t : Text} (h : newlines s = newlines t) :
    blankedLines s = blankedLines t := by
  rw [blankedLines, blankedLines, h]

namespace Style

theorem Replaces.congr {theme : Option Text} {b d s t : Style} (hb : b.attrs = d.attrs)
    (hs : s.attrs = t.attrs) (h : b.Replaces theme s) : d.Replaces theme t := by
  obtain ⟨x, as⟩ := b
  obtain ⟨y, bs⟩ := s
  subst hb hs
  exact ⟨h.themed, h.active, h.scope, h.aim⟩

theorem Inactive.congr {theme : Option Text} {s t : Style} (h : s.attrs = t.attrs)
    (hs : s.Inactive theme) : t.Inactive theme := by
  obtain ⟨x, as⟩ := s
  subst h
  exact hs

theorem isThemed_congr {s t : Style} (h : s.attrs = t.attrs) : s.isThemed = t.isThemed := by
  obtain ⟨x, as⟩ := s
  subst h
  rfl

theorem Replaces.not_inactive {theme : Option Text} {b s : Style} (h : b.Replaces theme s) :
    ¬ b.Inactive theme :=
  fun ⟨_, ht, hn⟩ => hn (h.active.symm.trans ht)

/-- Two blocks that differ at most in what `theme` keeps out of the text, the first of them among
its `siblings`. -/
inductive Alike (siblings : List Style) (theme : Option Text) : Style → Style → Prop where
  | same (s : Style) : Alike siblings theme s s
  | inactive {s t : Style} : s.Inactive theme → t.Inactive theme →
      newlines s.content = newlines t.content →
      s.attrs.without steeringNames = t.attrs.without steeringNames → Alike siblings theme s t
  | suppressed {s t : Style} : (s.fate siblings theme).suppressed = true → s.attrs = t.attrs →
      newlines s.content = newlines t.content → Alike siblings theme s t

section

variable {siblings ss tt : List Style} {theme : Option Text} {s t u v : Style}

theorem Alike.replaces_iff (h : Alike siblings theme s t) (hu : u.attrs = v.attrs) :
    s.Replaces theme u ↔ t.Replaces theme v := by
  cases h with
  | same => exact ⟨.congr rfl hu, .congr rfl hu.symm⟩
  | inactive hs ht => exact iff_of_false (fun r => r.not_inactive hs) fun r => r.not_inactive ht
  | suppressed _ ha => exact ⟨.congr ha hu, .congr ha.symm hu.symm⟩

theorem exists_replaces_iff (h : List.Forall₂ (Alike siblings theme) ss tt)
    (hu : u.attrs = v.attrs) :
    (∃ b ∈ ss, b.Replaces theme u) ↔ ∃ b ∈ tt, b.Replaces theme v := by
  induction h with
  | nil => simp
  | cons hs _ ih =>
    rw [List.exists_mem_cons_iff, List.exists_mem_cons_iff, hs.replaces_iff hu, ih]

theorem suppressed_fate_alike (h : List.Forall₂ (Alike siblings theme) ss tt)
    (hu : u.attrs = v.attrs) :
    (u.fate ss theme).suppressed = (v.fate tt theme).suppressed := by
  have hi : u.Inactive theme ↔ v.Inactive theme := ⟨.congr hu, .congr hu.symm⟩
  rw [Bool.eq_iff_iff, suppressed_fate_iff, suppressed_fate_iff, hi, isThemed_congr hu,
    exists_replaces_iff h hu]

theorem emitted_of_suppressed {f : Fate} (h : f.suppressed = true) :
    s.emitted f = ⟨s.content.blankedLines, s.attrs.without steeringNames⟩ := by
  rw [emitted, if_pos h]

theorem Alike.emitted (h : List.Forall₂ (Alike ss theme) ss tt) (hs : Alike ss theme s t) :
    s.emitted (s.fate ss theme) = t.emitted (t.fate tt theme) := by
  cases hs with
  | same => exact emitted_congr (suppressed_fate_alike h rfl)
  | inactive hi hj hn ha =>
    rw [emitted_of_suppressed (suppressed_fate_iff.2 (.inl hi)),
      emitted_of_suppressed (suppressed_fate_iff.2 (.inl hj)), Text.blankedLines_congr hn, ha]
  | suppressed hf ha hn =>
    rw [emitted_of_suppressed hf, emitted_of_suppressed ((suppressed_fate_alike h ha).symm.trans hf),
      Text.blankedLines_congr hn, ha]

end

end Style

namespace Component

theorem styles_themed_of_alike {c d : Component} {theme : Option Text}
    (h : List.Forall₂ (Style.Alike c.styles theme) c.styles d.styles) :
    (c.themed theme).styles = (d.themed theme).styles := by
  rw [← List.forall₂_eq_eq_eq]
  simp only [themed, List.forall₂_map_left_iff, List.forall₂_map_right_iff]
  exact h.imp fun _ _ hs => hs.emitted h

/-- Excluded blocks come through with their line counts and the attributes that stay, and with
nothing else. -/
theorem source_themed_of_alike {c d : Component} {theme : Option Text}
    (ht : c.template = d.template) (hs : c.script = d.script)
    (hb : c.customBlocks = d.customBlocks)
    (h : List.Forall₂ (Style.Alike c.styles theme) c.styles d.styles) :
    (c.themed theme).source = (d.themed theme).source := by
  have hc : c.themed theme = d.themed theme := by
    have hstyles := styles_themed_of_alike h
    simp only [themed] at hstyles ⊢
    rw [ht, hs, hb, hstyles]
  rw [hc]

/-- A block of another theme under another name, with another content, id and target, and a replaced
base block with another content. The id and the target would matter in a block that is not excluded. -/
theorem source_themed_of_alike_other_theme :
    let d : Text := ['d']
    let base : Text → Style := fun content => ⟨content, .ofList [("id", .text ['a'])]⟩
    let kept : Style := ⟨"k\n", .ofList [("id", .text ['b']), ("lang", .text "css")]⟩
    let aimed : Style := ⟨['q'], .ofList [("theme", .text d), ("replace", .text ['a'])]⟩
    let left : Style := ⟨['x', '\n', '\n'], .ofList
      [("theme", .text ['l']), ("media", .text ['m']), ("replace", .present)]⟩
    let right : Style := ⟨['\n', 'y', '\n'], .ofList
      [("media", .text ['m']), ("id", .text ['a']), ("theme", .text ['r'])]⟩
    let component : List Style → Component := fun styles =>
      ⟨some ⟨"template", "t", .empty⟩, none, styles, [⟨"docs", [], .empty⟩]⟩
    let a : Component := component [base ['\n', 'p'], left, aimed, kept]
    let b : Component := component [base ['s', '\n'], right, aimed, kept]
    (a.themed (some d)).source = (b.themed (some d)).source ∧
      (a.themed (some ['l'])).source ≠ (b.themed (some ['l'])).source := by
  intro d base kept aimed left right component a b
  have hleft : left.Inactive (some d) := ⟨['l'], by decide, by decide⟩
  have hright : right.Inactive (some d) := ⟨['r'], by decide, by decide⟩
  have h : List.Forall₂ (Style.Alike a.styles (some d)) a.styles b.styles :=
    .cons (.suppressed (by decide) rfl rfl) <|
      .cons (.inactive hleft hright rfl (by decide)) <| .cons (.same aimed) <|
        .cons (.same kept) .nil
  exact ⟨source_themed_of_alike rfl rfl rfl h, by decide +kernel⟩

end Component

end SfcTheme

import SfcTheme.Proofs.Decisions
import SfcTheme.Proofs.Findings

/-!
The rules on attributes that do nothing, against what themes do. A block is inert if no theme leaves
out another block on its account. What these rules report is inert, and a `replace` in an inert
block is reported once, unless it is bare and wants nothing but a base block to replace.
-/

set_option autoImplicit false

namespace SfcTheme

namespace Style

/-- As an only sibling the block makes no difference to any block of the component. -/
def Inert (styles : List Style) (b : Style) : Prop :=
  ∀ theme, ∀ s ∈ styles, (s.fate [b] theme).suppressed = (s.fate [] theme).suppressed

theorem inert_iff {styles : List Style} {b : Style} :
    b.Inert styles ↔ ∀ s ∈ styles, s.isThemed = false → ∀ theme, ¬ b.Replaces theme s := by
  have alone (s : Style) (theme : Option Text) : (s.fate [b] theme).suppressed = true ↔
      (s.fate [] theme).suppressed = true ∨ s.isThemed = false ∧ b.Replaces theme s :=
    s.suppressed_fate_insert_iff b [] [] theme
  constructor
  · intro h s hs hbase theme hr
    have hkept : ¬ (s.fate [] theme).suppressed = true := by
      have ht : s.theme? = none := Option.isNone_iff_eq_none.1 (by simpa [isThemed] using hbase)
      simp [suppressed_fate_of_base ht]
    exact hkept ((h theme s hs) ▸ (alone s theme).2 (.inr ⟨hbase, hr⟩))
  · intro h theme s hs
    rw [Bool.eq_iff_iff, alone]
    refine or_iff_left ?_
    rintro ⟨hbase, hr⟩
    exact h s hs hbase theme hr

theorem inert_of_base {b : Style} (h : b.isThemed = false) (styles : List Style) :
    b.Inert styles := by
  refine inert_iff.2 fun s _ _ theme hr => ?_
  rw [hr.themed] at h
  cases h

theorem inert_iff_of_target {styles : List Style} {b : Style} {target : Text}
    (ht : b.isThemed = true) (hr : b.replace? = some (.text target)) :
    b.Inert styles ↔ styles.any (Rule.isTarget target b.isScoped) = false := by
  have haim (s : Style) : (∃ theme, b.Replaces theme s) ↔
      b.isScoped = s.isScoped ∧ s.id? = some target := by
    constructor
    · rintro ⟨theme, h⟩
      obtain ha | ⟨id, hi, ha⟩ := h.aim
      · rw [hr] at ha
        cases ha
      · rw [hr] at ha
        cases ha
        exact ⟨h.scope, hi⟩
    · rintro ⟨hs, hi⟩
      exact ⟨b.theme?, ht, rfl, hs, .inr ⟨target, hi, hr⟩⟩
  rw [inert_iff, List.any_eq_false]
  refine forall₂_congr fun s _ => ?_
  rw [← not_exists, haim]
  simp only [Rule.isTarget, Bool.and_eq_true, Bool.not_eq_true', beq_iff_eq, not_and, and_imp,
    eq_comm (a := b.isScoped)]

theorem has_theme {b : Style} (h : b.isThemed = true) : b.attrs.has "theme" = true := by
  obtain ⟨t, ht⟩ := Option.isSome_iff_exists.1 h
  rw [OrderedMap.has, (theme?_eq_some_iff.1 ht).1]
  rfl

end Style

namespace Rule

def ineffective : List Rule := [themeHasValue, replaceOnBaseBlock, replaceTargetExists]

section

variable {c : Component} {i : Nat} {b : Style} (hb : c.styles[i]? = some b)

include hb

theorem inert_of_about {rule : Rule} (hr : rule ∈ ineffective) (ha : about rule c i ≠ []) :
    b.Inert c.styles := by
  have flag {severity : Severity} {flags : Style → Nat → Bool}
      (h : Flags rule c severity flags) : flags b i = true := by
    have hl := h.length_about hb
    by_contra hf
    rw [Bool.not_eq_true] at hf
    rw [hf] at hl
    exact ha (List.length_eq_zero_iff.1 hl)
  simp only [ineffective, List.mem_cons, List.not_mem_nil, or_false] at hr
  rcases hr with rfl | rfl | rfl
  · have h := flag (flags_themeHasValue c)
    simp only [Bool.and_eq_true, Bool.not_eq_true'] at h
    exact Style.inert_of_base h.2 c.styles
  · have h := flag (flags_replaceOnBaseBlock c)
    simp only [Bool.and_eq_true, Bool.not_eq_true'] at h
    refine Style.inert_of_base (Bool.eq_false_iff.2 fun ht => ?_) c.styles
    rw [Style.has_theme ht] at h
    exact absurd h.1 (by simp)
  · have h := flag (flags_replaceTargetExists c)
    simp only [missesTarget, Bool.and_eq_true, Option.any_eq_true, Bool.not_eq_true'] at h
    obtain ⟨ht, target, hr, hn⟩ := h
    exact (Style.inert_iff_of_target ht (Style.text?_eq_some_iff.1 hr)).2 hn

theorem length_about_of_inert (hr : b.attrs.has "replace" = true) (hi : b.Inert c.styles)
    (hn : ¬ (b.isThemed = true ∧ b.replace? = some .present)) :
    ineffective.map (fun rule => (about rule c i).length) =
      if b.isThemed then [0, 0, 1] else if b.attrs.has "theme" then [1, 0, 0] else [0, 1, 0] := by
  simp only [ineffective, List.map_cons, List.map_nil, (flags_themeHasValue c).length_about hb,
    (flags_replaceOnBaseBlock c).length_about hb, (flags_replaceTargetExists c).length_about hb]
  cases ht : b.isThemed with
  | false =>
    cases hth : b.attrs.has "theme" <;> (simp only [missesTarget, ht, hr]; rfl)
  | true =>
    obtain ⟨v, hv⟩ := Option.isSome_iff_exists.1 hr
    cases v with
    | present => exact absurd ⟨ht, hv⟩ hn
    | text target =>
      have hany := (Style.inert_iff_of_target ht hv).1 hi
      simp only [missesTarget, ht, Style.has_theme ht, Style.text?_eq_some_iff.2 hv,
        Option.any_some, hany]
      rfl

/-- The findings about a block are those of one rule, and that one has a single finding. -/
def OnlyOne (rules : List Rule) (c : Component) (i : Nat) : Prop :=
  ∃ before rule after, rules = before ++ rule :: after ∧ (about rule c i).length = 1 ∧
    ∀ other ∈ before ++ after, about other c i = []

theorem onlyOne_of_inert (hr : b.attrs.has "replace" = true) (hi : b.Inert c.styles)
    (hn : ¬ (b.isThemed = true ∧ b.replace? = some .present)) : OnlyOne ineffective c i := by
  have h := length_about_of_inert hb hr hi hn
  simp only [ineffective, List.map_cons, List.map_nil] at h
  split at h
  · simp only [List.cons.injEq, List.length_eq_zero_iff] at h
    exact ⟨[themeHasValue, replaceOnBaseBlock], replaceTargetExists, [], rfl, h.2.2.1, by simp [h]⟩
  · split at h
    · simp only [List.cons.injEq, List.length_eq_zero_iff] at h
      exact ⟨[], themeHasValue, [replaceOnBaseBlock, replaceTargetExists], rfl, h.1, by simp [h]⟩
    · simp only [List.cons.injEq, List.length_eq_zero_iff] at h
      exact ⟨[themeHasValue], replaceOnBaseBlock, [replaceTargetExists], rfl, h.2.1, by simp [h]⟩

end

/-- The rules and the themes agree on what does nothing. -/
theorem reported_inert (c : Component) (i : Nat) (b : Style) (hb : c.styles[i]? = some b) :
    ((∃ rule ∈ ineffective, about rule c i ≠ []) → b.Inert c.styles) ∧
      (b.attrs.has "replace" = true → b.Inert c.styles →
        ¬ (b.isThemed = true ∧ b.replace? = some .present) → OnlyOne ineffective c i) :=
  ⟨fun ⟨_, hr, ha⟩ => inert_of_about hb hr ha, onlyOne_of_inert hb⟩

/-- A block of a theme that is aimed into the other scope class, one whose theme has no name, and one
that is no block of a theme. The last block has a target, and its theme leaves that out. -/
theorem reported_inert_three_rules :
    let d : Text := ['d']
    let base : Style := ⟨['p'], .ofList [("id", .text ['a'])]⟩
    let astray : Style := ⟨['q'], .ofList
      [("theme", .text d), ("scoped", .present), ("replace", .text ['a'])]⟩
    let nameless : Style := ⟨['r'], .ofList [("theme", .text []), ("replace", .present)]⟩
    let homeless : Style := ⟨['s'], .ofList [("replace", .text [])]⟩
    let aimed : Style := ⟨['t'], .ofList [("theme", .text d), ("replace", .text ['a'])]⟩
    let c : Component := ⟨none, none, [base, astray, nameless, homeless, aimed], []⟩
    (astray.Inert c.styles ∧ OnlyOne ineffective c 1) ∧
      (nameless.Inert c.styles ∧ OnlyOne ineffective c 2) ∧
      (homeless.Inert c.styles ∧ OnlyOne ineffective c 3) ∧
      (∀ rule ∈ ineffective, about rule c 4 = []) ∧ ¬ aimed.Inert c.styles := by
  intro d base astray nameless homeless aimed c
  have astrayInert : astray.Inert c.styles := (reported_inert c 1 astray rfl).1
    ⟨replaceTargetExists, by simp [ineffective], by decide⟩
  have namelessInert : nameless.Inert c.styles := (reported_inert c 2 nameless rfl).1
    ⟨themeHasValue, by simp [ineffective], by decide⟩
  have homelessInert : homeless.Inert c.styles := (reported_inert c 3 homeless rfl).1
    ⟨replaceOnBaseBlock, by simp [ineffective], by decide⟩
  refine ⟨⟨astrayInert, (reported_inert c 1 astray rfl).2 (by decide) astrayInert (by decide)⟩,
    ⟨namelessInert, (reported_inert c 2 nameless rfl).2 (by decide) namelessInert (by decide)⟩,
    ⟨homelessInert, (reported_inert c 3 homeless rfl).2 (by decide) homelessInert (by decide)⟩,
    fun rule hr => ?_, fun h => ?_⟩
  · simp only [ineffective, List.mem_cons, List.not_mem_nil, or_false] at hr
    rcases hr with rfl | rfl | rfl <;> decide
  · exact absurd (h (some d) base (by simp [c])) (by decide)

end Rule

end SfcTheme

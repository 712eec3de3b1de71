import SfcTheme.Proofs.Resolution

set_option autoImplicit false

namespace SfcTheme

namespace Fate

theorem reason_replacedById (t id : Text) :
    (replacedById t id).reason = (replaced t).reason ++ (" targeting id " ++ id.quoted) :=
  List.append_assoc ..

theorem reason_replacedById_ne (t id : Text) : (replacedById t id).reason ≠ (replaced t).reason := by
  rw [reason_replacedById]
  intro h
  obtain ⟨h, _⟩ := List.append_eq_nil_iff.1 (List.append_right_eq_self.1 h)
  exact absurd h (by decide)

end Fate

namespace Style

def NamesTheme (s : Style) (t : Text) : Prop := s.attrs.get? "theme" = some (.text t) ∧ t ≠ []

theorem text?_eq_some_iff {s : Style} {name t : Text} :
    s.text? name = some t ↔ s.attrs.get? name = some (.text t) := by
  rw [text?]
  cases s.attrs.get? name with
  | none => simp
  | some v => cases v <;> simp [AttrValue.text?]

theorem theme?_eq_some_iff {s : Style} {t : Text} : s.theme? = some t ↔ s.NamesTheme t := by
  rw [theme?, Option.filter_eq_some_iff, text?_eq_some_iff, NamesTheme]
  simp

theorem theme?_eq_none_iff {s : Style} : s.theme? = none ↔ ¬ ∃ t, s.NamesTheme t := by
  simp only [Option.eq_none_iff_forall_ne_some, ne_eq, theme?_eq_some_iff, not_exists]

theorem replaces_iff_attrs {theme : Option Text} {b s : Style} :
    b.Replaces theme s ↔ (∃ t, theme = some t ∧ b.NamesTheme t) ∧
      (b.attrs.get? "scoped" = some .present ↔ s.attrs.get? "scoped" = some .present) ∧
      (b.attrs.get? "replace" = some .present ∨
        ∃ id, s.attrs.get? "id" = some (.text id) ∧ b.attrs.get? "replace" = some (.text id)) := by
  have hscope : b.isScoped = s.isScoped ↔
      (b.attrs.get? "scoped" = some .present ↔ s.attrs.get? "scoped" = some .present) := by
    rw [isScoped, isScoped, decide_eq_decide]
  have haim : (∃ id, s.id? = some id ∧ b.replace? = some (.text id)) ↔
      ∃ id, s.attrs.get? "id" = some (.text id) ∧ b.attrs.get? "replace" = some (.text id) := by
    simp only [id?, text?_eq_some_iff, replace?]
  rw [← hscope, ← haim]
  constructor
  · intro h
    obtain ⟨t, ht⟩ := Option.isSome_iff_exists.1 h.themed
    exact ⟨⟨t, h.active.symm.trans ht, theme?_eq_some_iff.1 ht⟩, h.scope, h.aim⟩
  · rintro ⟨⟨t, rfl, hb⟩, hs, ha⟩
    have ht : b.theme? = some t := theme?_eq_some_iff.2 hb
    exact ⟨by rw [isThemed, ht]; rfl, ht, hs, ha⟩

/-- Of the siblings that replace `s`, the first in their order. -/
structure FirstReplaces (siblings : List Style) (theme : Option Text) (b s : Style) : Prop where
  replaces : b.Replaces theme s
  first : ∃ before after, siblings = before ++ b :: after ∧ ∀ x ∈ before, ¬ x.Replaces theme s

theorem replacementBy?_eq_none_iff {s b : Style} {theme : Option Text} :
    s.replacementBy? theme b = none ↔ ¬ b.Replaces theme s := by
  rw [← isSome_replacementBy?_iff, Bool.not_eq_true, Option.isSome_eq_false_iff,
    Option.isNone_iff_eq_none]

theorem replacementBy?_of_replaces {s b : Style} {theme : Option Text} (h : b.Replaces theme s) :
    ∃ t, theme = some t ∧
      (b.replace? = some .present ∧ s.replacementBy? theme b = some (.replaced t) ∨
        ∃ id, s.id? = some id ∧ b.replace? = some (.text id) ∧
          s.replacementBy? theme b = some (.replacedById t id)) := by
  obtain ⟨t, ht⟩ := Option.isSome_iff_exists.1 h.themed
  have hc : theme = some t ∧ b.isScoped = s.isScoped := ⟨h.active.symm.trans ht, h.scope⟩
  refine ⟨t, hc.1, h.aim.imp (fun hr => ⟨hr, ?_⟩) fun ⟨id, hi, hr⟩ => ⟨id, hi, hr, ?_⟩⟩
  · simp [replacementBy?, ht, hc, hr]
  · simp [replacementBy?, ht, hc, hr, hi]

theorem exists_firstReplaces {s : Style} {siblings : List Style} {theme : Option Text}
    (hs : s.theme? = none) (h : (s.fate siblings theme).suppressed = true) :
    ∃ b, FirstReplaces siblings theme b s ∧
      s.replacementBy? theme b = some (s.fate siblings theme) := by
  obtain ⟨c, hc, hr⟩ := (suppressed_fate_of_base hs siblings theme).1 h
  have hsome : (siblings.findSome? (s.replacementBy? theme)).isSome = true :=
    List.findSome?_isSome_iff.2 ⟨c, hc, isSome_replacementBy?_iff.2 hr⟩
  obtain ⟨f, hf⟩ := Option.isSome_iff_exists.1 hsome
  have hfate : s.fate siblings theme = f := by simp [fate, hs, hf]
  obtain ⟨before, b, after, e, hb, hn⟩ := List.findSome?_eq_some_iff.1 hf
  have hrep : b.Replaces theme s := isSome_replacementBy?_iff.1 (by rw [hb]; rfl)
  exact ⟨b, ⟨hrep, before, after, e, fun x hx => replacementBy?_eq_none_iff.1 (hn x hx)⟩,
    hfate ▸ hb⟩

theorem not_suppressed_of_replaces {s b : Style} {theme : Option Text} (h : b.Replaces theme s)
    (siblings : List Style) : (b.fate siblings theme).suppressed = false := by
  obtain ⟨t, ht⟩ := Option.isSome_iff_exists.1 h.themed
  rw [← Bool.not_eq_true, suppressed_fate_of_themed ht, not_not]
  exact h.active.symm.trans ht

end Style

theorem getElem?_decisions {styles : List Style} {i : Nat} {s : Style} (h : styles[i]? = some s)
    (theme : Option Text) : (decisions styles theme)[i]? = some ⟨i, s.fate styles theme⟩ := by
  simp [decisions, h]

/-- All that the decision `d` on the block `s` at the index `i` says under a theme. -/
structure Decision.Explains (d : Decision) (styles : List Style) (theme : Option Text) (i : Nat)
    (s : Style) : Prop where
  index : d.index = i
  themed : ∀ t, s.NamesTheme t → (d.fate.suppressed = true ↔ theme ≠ some t)
  base : (¬ ∃ t, s.NamesTheme t) → (d.fate.suppressed = true ↔ ∃ b ∈ styles,
    (∃ t, theme = some t ∧ b.NamesTheme t) ∧
    (b.attrs.get? "scoped" = some .present ↔ s.attrs.get? "scoped" = some .present) ∧
    (b.attrs.get? "replace" = some .present ∨
      ∃ id, s.attrs.get? "id" = some (.text id) ∧ b.attrs.get? "replace" = some (.text id)))
  reason : (¬ ∃ t, s.NamesTheme t) → d.fate.suppressed = true →
    ∃ b t, theme = some t ∧ Style.FirstReplaces styles theme b s ∧
      (d.fate.reason = (Fate.replaced t).reason ↔ b.replace? = some .present) ∧
      (b.replace? ≠ some .present →
        ∃ id, s.id? = some id ∧ d.fate.reason = (Fate.replacedById t id).reason)
  survives : ∀ (j : Nat) (b : Style), styles[j]? = some b → b.Replaces theme s →
    ∃ e, (decisions styles theme)[j]? = some e ∧ e.index = j ∧ e.fate.suppressed = false
  substitute : (¬ ∃ t, s.NamesTheme t) → d.fate.suppressed = true →
    ∃ (j : Nat) (b : Style) (e : Decision), styles[j]? = some b ∧ b.isScoped = s.isScoped ∧
      (decisions styles theme)[j]? = some e ∧ e.fate.suppressed = false

theorem Decision.explains_fate (styles : List Style) (theme : Option Text) (i : Nat) (s : Style) :
    Decision.Explains ⟨i, s.fate styles theme⟩ styles theme i s := by
  have survives : ∀ (j : Nat) (b : Style), styles[j]? = some b → b.Replaces theme s →
      ∃ e, (decisions styles theme)[j]? = some e ∧ e.index = j ∧ e.fate.suppressed = false :=
    fun j b hj hb =>
      ⟨_, getElem?_decisions hj theme, rfl, Style.not_suppressed_of_replaces hb styles⟩
  refine ⟨rfl, fun t ht => ?_, fun hs => ?_, fun hs hd => ?_, survives, fun hs hd => ?_⟩
  · exact Style.suppressed_fate_of_themed (Style.theme?_eq_some_iff.2 ht) styles theme
  · simp only [← Style.replaces_iff_attrs]
    exact Style.suppressed_fate_of_base (Style.theme?_eq_none_iff.2 hs) styles theme
  · obtain ⟨b, hb, hf⟩ := Style.exists_firstReplaces (Style.theme?_eq_none_iff.2 hs) hd
    obtain ⟨t, ht, hr⟩ := Style.replacementBy?_of_replaces hb.replaces
    refine ⟨b, t, ht, hb, ?_⟩
    rcases hr with ⟨hbare, e⟩ | ⟨id, hi, htext, e⟩
    · rw [e] at hf
      simp [← Option.some.inj hf, hbare]
    · rw [e] at hf
      simp [← Option.some.inj hf, htext, hi, Fate.reason_replacedById_ne]
  · obtain ⟨b, hb, hr⟩ :=
      (Style.suppressed_fate_of_base (Style.theme?_eq_none_iff.2 hs) styles theme).1 hd
    obtain ⟨j, hj⟩ := List.getElem?_of_mem hb
    obtain ⟨e, he, _, hk⟩ := survives j b hj hr
    exact ⟨j, b, e, hj, hr.scope, he, hk⟩

theorem suppressions_of_foreign {styles : List Style} {theme : Option Text}
    (h : ∀ s ∈ styles, ∀ t, s.NamesTheme t → theme ≠ some t) :
    suppressions styles theme = suppressions styles none := by
  simp only [← Style.theme?_eq_some_iff] at h
  rw [suppressions_eq, suppressions_eq]
  refine List.map_congr_left fun s hs => ?_
  rw [Bool.eq_iff_iff]
  cases ht : s.theme? with
  | some t => simp [Style.suppressed_fate_of_themed ht, h s hs t ht]
  | none =>
    have hn : ∀ u : Option Text, (∀ s ∈ styles, ∀ t, s.theme? = some t → u ≠ some t) →
        ¬ ∃ b ∈ styles, b.Replaces u s := fun u hu ⟨b, hb, hr⟩ => by
      obtain ⟨t, hbt⟩ := Option.isSome_iff_exists.1 hr.themed
      exact hu b hb t hbt (hr.active.symm.trans hbt)
    rw [Style.suppressed_fate_of_base ht, Style.suppressed_fate_of_base ht]
    exact iff_of_false (hn theme h) (hn none (by simp))

/-- Every style block has its decision. Where no block belongs to the active theme, only the themed
blocks are left out, as under no theme at all. -/
theorem decisions_explained (styles : List Style) (theme : Option Text) :
    (decisions styles theme).length = styles.length ∧
      (∀ (i : Nat) (s : Style), styles[i]? = some s →
        ∃ d, (decisions styles theme)[i]? = some d ∧ d.Explains styles theme i s) ∧
      ((∀ s ∈ styles, ∀ t, s.NamesTheme t → theme ≠ some t) →
        suppressions styles theme = suppressions styles none) := by
  refine ⟨by simp [decisions], fun i s h => ⟨_, getElem?_decisions h theme, ?_⟩, fun h => ?_⟩
  · exact Decision.explains_fate styles theme i s
  · exact suppressions_of_foreign h

/-- The base block has an empty id, which the first replacement names. That one stands behind the
block, the second one is bare, and the block of the other scope class is kept. Under a theme of no
block the themed blocks alone are left out. -/
theorem decisions_explained_empty_id :
    let d : Text := ['d']
    let base : Style := ⟨['p'], .ofList [("id", .text []), ("theme", .text [])]⟩
    let aimed : Style := ⟨['q'], .ofList [("theme", .text d), ("replace", .text [])]⟩
    let bare : Style := ⟨['r'], .ofList [("theme", .text d), ("replace", .present)]⟩
    let narrow : Style := ⟨['s'], .ofList [("scoped", .present), ("id", .text [])]⟩
    let styles : List Style := [base, aimed, bare, narrow]
    (∃ e, (decisions styles (some d))[0]? = some e ∧ e.Explains styles (some d) 0 base ∧
      e.fate.suppressed = true ∧
      e.fate.reason = ("replaced by theme 'd' targeting id ''" : Text)) ∧
      suppressions styles (some d) = [true, false, false, false] ∧
      suppressions styles (some []) = suppressions styles none ∧
      suppressions styles none = [false, true, true, false] := by
  intro d base aimed bare narrow styles
  obtain ⟨e, he, hd⟩ := (decisions_explained styles (some d)).2.1 0 base rfl
  obtain rfl : ⟨0, .replacedById d []⟩ = e := by
    rw [show (decisions styles (some d))[0]? = some ⟨0, .replacedById d []⟩ by decide] at he
    exact Option.some.inj he
  have hforeign : ∀ s ∈ styles, ∀ t, s.NamesTheme t → some [] ≠ some t :=
    fun s _ t ht e => ht.2 (Option.some.inj e).symm
  exact ⟨⟨_, he, hd, rfl, by decide⟩, by decide,
    (decisions_explained styles (some [])).2.2 hforeign, by decide⟩

end SfcTheme

import Mathlib.Data.List.Basic
import Mathlib.Data.List.InsertIdx
import SfcTheme.Fate

/-!
Which style blocks a theme leaves out, said without the scan over the siblings: a themed block under
every theme but its own, and a base block that some sibling replaces. Only the reason depends on the
order of the siblings. One sibling more leaves out what it replaces itself and nothing else.
-/

set_option autoImplicit false

namespace SfcTheme

def reordered {α : Type} (p : List Nat) (l : List α) : List α := p.filterMap (l[·]?)

theorem map_reordered {α β : Type} (f : α → β) (p : List Nat) (l : List α) :
    (reordered p l).map f = reordered p (l.map f) := by
  simp only [reordered, List.map_filterMap, List.getElem?_map]

theorem reordered_range {α : Type} (l : List α) : reordered (List.range l.length) l = l := by
  induction l with
  | nil => rfl
  | cons a l ih =>
    rw [reordered] at ih
    simpa [reordered, List.range_succ_eq_map, List.filterMap_map, Function.comp_def] using ih

theorem perm_reordered {α : Type} {p : List Nat} {l : List α}
    (hp : p.Perm (List.range l.length)) : (reordered p l).Perm l := by
  have h : (reordered p l).Perm (reordered (List.range l.length) l) := hp.filterMap _
  rwa [reordered_range] at h

namespace Style

/-- The block belongs to another theme than the active one. -/
def Inactive (theme : Option Text) (s : Style) : Prop := ∃ t, s.theme? = some t ∧ theme ≠ some t

/-- While `theme` is active, `b` replaces base blocks like `s`: those of its scope class, and either
all of them or the ones with the id that it names. -/
structure Replaces (theme : Option Text) (b s : Style) : Prop where
  themed : b.isThemed = true
  active : b.theme? = theme
  scope : b.isScoped = s.isScoped
  aim : b.replace? = some .present ∨ ∃ id, s.id? = some id ∧ b.replace? = some (.text id)

theorem isSome_replacementBy?_iff {s b : Style} {theme : Option Text} :
    (s.replacementBy? theme b).isSome = true ↔ b.Replaces theme s := by
  unfold replacementBy?
  constructor
  · intro h
    split at h
    · cases h
    · next t ht =>
      have hthemed : b.isThemed = true := by rw [isThemed, ht]; rfl
      split at h
      · next hc =>
        refine ⟨hthemed, ht.trans hc.1.symm, hc.2, ?_⟩
        split at h
        · next hr => exact .inl hr
        · next target id hr hi =>
          split at h
          · next e => exact .inr ⟨id, hi, by rw [hr, e]⟩
          · cases h
        · cases h
      · cases h
  · intro h
    obtain ⟨t, ht⟩ := Option.isSome_iff_exists.1 h.themed
    have hc : theme = some t ∧ b.isScoped = s.isScoped := ⟨h.active.symm.trans ht, h.scope⟩
    rw [ht]
    simp only [if_pos hc]
    rcases h.aim with hr | ⟨id, hi, hr⟩
    · rw [hr]; rfl
    · rw [hr, hi]; simp

theorem suppressed_of_replacementBy? {s b : Style} {theme : Option Text} {f : Fate}
    (h : s.replacementBy? theme b = some f) : f.suppressed = true := by
  unfold replacementBy? at h
  split at h
  · cases h
  · split at h
    · split at h
      · cases h; rfl
      · split at h
        · cases h; rfl
        · cases h
      · cases h
    · cases h

theorem suppressed_fate_of_themed {s : Style} {t : Text} (h : s.theme? = some t)
    (siblings : List Style) (theme : Option Text) :
    (s.fate siblings theme).suppressed = true ↔ theme ≠ some t := by
  by_cases ht : theme = some t <;> simp [fate, h, ht, Fate.suppressed]

theorem suppressed_fate_of_base {s : Style} (h : s.theme? = none) (siblings : List Style)
    (theme : Option Text) :
    (s.fate siblings theme).suppressed = true ↔ ∃ b ∈ siblings, b.Replaces theme s := by
  simp only [← isSome_replacementBy?_iff, ← List.findSome?_isSome_iff, fate, h]
  cases hf : siblings.findSome? (s.replacementBy? theme) with
  | none => simp [Fate.suppressed]
  | some f =>
    obtain ⟨b, _, hb⟩ := List.exists_of_findSome?_eq_some hf
    simp [suppressed_of_replacementBy? hb]

theorem suppressed_fate_iff {s : Style} {siblings : List Style} {theme : Option Text} :
    (s.fate siblings theme).suppressed = true ↔
      s.Inactive theme ∨ s.isThemed = false ∧ ∃ b ∈ siblings, b.Replaces theme s := by
  cases h : s.theme? with
  | none => simp [suppressed_fate_of_base h, Inactive, isThemed, h]
  | some t => simp [suppressed_fate_of_themed h, Inactive, isThemed, h]

theorem suppressed_fate_perm {xs ys : List Style} (h : xs.Perm ys) (s : Style)
    (theme : Option Text) : (s.fate xs theme).suppressed = (s.fate ys theme).suppressed := by
  rw [Bool.eq_iff_iff, suppressed_fate_iff, suppressed_fate_iff]
  simp only [h.mem_iff]

theorem suppressed_fate_insert_iff (s b : Style) (xs ys : List Style) (theme : Option Text) :
    (s.fate (xs ++ b :: ys) theme).suppressed = true ↔
      (s.fate (xs ++ ys) theme).suppressed = true ∨ s.isThemed = false ∧ b.Replaces theme s := by
  have h : (∃ d ∈ xs ++ b :: ys, d.Replaces theme s) ↔
      b.Replaces theme s ∨ ∃ d ∈ xs ++ ys, d.Replaces theme s := by
    simp only [List.perm_middle.mem_iff, List.exists_mem_cons_iff]
  rw [suppressed_fate_iff, suppressed_fate_iff, h, or_assoc, ← and_or_left,
    or_comm (a := b.Replaces theme s)]

theorem emitted_congr {s : Style} {f g : Fate} (h : f.suppressed = g.suppressed) :
    s.emitted f = s.emitted g := by
  rw [emitted, emitted, h]

end Style

def suppressions (styles : List Style) (theme : Option Text) : List Bool :=
  (decisions styles theme).map fun d => d.fate.suppressed

theorem suppressions_eq (styles : List Style) (theme : Option Text) :
    suppressions styles theme = styles.map fun s => (s.fate styles theme).suppressed := calc
  suppressions styles theme =
      (styles.zipIdx.map Prod.fst).map fun s => (s.fate styles theme).suppressed := by
    rw [suppressions, decisions, List.map_map, List.map_map]
    rfl
  _ = styles.map fun s => (s.fate styles theme).suppressed := by rw [List.zipIdx_map_fst]

theorem getElem?_suppressions {styles : List Style} {i : Nat} {s : Style}
    (h : styles[i]? = some s) (theme : Option Text) :
    (suppressions styles theme)[i]? = some (s.fate styles theme).suppressed := by
  rw [suppressions_eq, List.getElem?_map, h]
  rfl

theorem suppressions_reordered {p : List Nat} {styles : List Style}
    (hp : p.Perm (List.range styles.length)) (theme : Option Text) :
    suppressions (reordered p styles) theme = reordered p (suppressions styles theme) := by
  rw [suppressions_eq, suppressions_eq, ← map_reordered]
  exact List.map_congr_left fun s _ => s.suppressed_fate_perm (perm_reordered hp) theme

theorem getElem?_suppressions_insert {xs ys : List Style} {i : Nat} {s : Style}
    (h : (xs ++ ys)[i]? = some s) (b : Style) (theme : Option Text) :
    ((suppressions (xs ++ b :: ys) theme).eraseIdx xs.length)[i]? =
      some (s.fate (xs ++ b :: ys) theme).suppressed := by
  have he : (xs ++ b :: ys).eraseIdx xs.length = xs ++ ys := by
    rw [List.eraseIdx_append_of_length_le (Nat.le_refl _)]
    simp
  rw [suppressions_eq, List.eraseIdx_map, he, List.getElem?_map, h]
  rfl

namespace Component

def inOrder (c : Component) (p : List Nat) : Component := { c with styles := reordered p c.styles }

theorem themed_inOrder {c : Component} {p : List Nat} (hp : p.Perm (List.range c.styles.length))
    (theme : Option Text) : (c.inOrder p).themed theme = (c.themed theme).inOrder p := by
  have hs : (reordered p c.styles).map (fun s => s.emitted (s.fate (reordered p c.styles) theme)) =
      (reordered p c.styles).map fun s => s.emitted (s.fate c.styles theme) :=
    List.map_congr_left fun s _ =>
      Style.emitted_congr (s.suppressed_fate_perm (perm_reordered hp) theme)
  rw [themed, inOrder, hs, map_reordered]
  rfl

/-- In another order of the style blocks a theme leaves out the same ones. With one block more it
brings none back, decides as before on the themed ones, and leaves out only those base blocks that
the new one replaces. -/
theorem suppressions_inOrder_insert (theme : Option Text) :
    (∀ (c : Component) (p : List Nat), p.Perm (List.range c.styles.length) →
      suppressions (c.inOrder p).styles theme = reordered p (suppressions c.styles theme) ∧
        (c.inOrder p).themed theme = (c.themed theme).inOrder p) ∧
      ∀ (xs ys : List Style) (b s : Style) (i : Nat), (xs ++ ys)[i]? = some s →
        ∃ before after : Bool, (suppressions (xs ++ ys) theme)[i]? = some before ∧
          ((suppressions (xs ++ b :: ys) theme).eraseIdx xs.length)[i]? = some after ∧
          (before = true → after = true) ∧ (s.isThemed = true → after = before) ∧
          (before = false → after = true → s.isThemed = false ∧ b.Replaces theme s) := by
  refine ⟨fun c p hp => ⟨suppressions_reordered hp theme, themed_inOrder hp theme⟩, ?_⟩
  intro xs ys b s i h
  refine ⟨_, _, getElem?_suppressions h theme, getElem?_suppressions_insert h b theme, ?_⟩
  have hi := s.suppressed_fate_insert_iff b xs ys theme
  refine ⟨fun hb => hi.2 (.inl hb), fun ht => ?_, fun hb ha => ?_⟩
  · rw [Bool.eq_iff_iff, hi]
    simp [ht]
  · exact (hi.1 ha).resolve_left (by simp [hb])

/-- Two blocks replace the base block, and the first of them in order gives the reason. The base block
of the other scope class comes through until a block of that class replaces it. -/
theorem suppressions_inOrder_insert_two_replacements :
    let d : Text := ['d']
    let base : Style := ⟨['p'], .ofList [("id", .text ['a'])]⟩
    let aimed : Style := ⟨['q'], .ofList [("theme", .text d), ("replace", .text ['a'])]⟩
    let bare : Style := ⟨['r'], .ofList [("theme", .text d), ("replace", .present)]⟩
    let narrow : Style := ⟨['s'], .ofList [("id", .text ['a']), ("scoped", .present)]⟩
    let new : Style := ⟨['t'], .ofList
      [("scoped", .present), ("theme", .text d), ("replace", .text ['a'])]⟩
    let c : Component := ⟨none, none, [base, aimed] ++ [bare, narrow], []⟩
    let p : List Nat := [3, 2, 0, 1]
    suppressions (c.inOrder p).styles (some d) = reordered p (suppressions c.styles (some d)) ∧
      (c.inOrder p).themed (some d) = (c.themed (some d)).inOrder p ∧
      base.fate c.styles (some d) = .replacedById d ['a'] ∧
      base.fate (c.inOrder p).styles (some d) = .replaced d ∧
      suppressions c.styles (some d) = [true, false, false, false] ∧
      suppressions ([base, aimed] ++ new :: [bare, narrow]) (some d) =
        [true, false, false, false, true] ∧
      narrow.isThemed = false ∧ new.Replaces (some d) narrow := by
  intro d base aimed bare narrow new c p
  obtain ⟨order, insertion⟩ := suppressions_inOrder_insert (some d)
  obtain ⟨hs, ht⟩ := order c p (by decide)
  have hbefore : suppressions c.styles (some d) = [true, false, false, false] := by decide
  have hafter : suppressions ([base, aimed] ++ new :: [bare, narrow]) (some d) =
      [true, false, false, false, true] := by decide
  obtain ⟨before, after, hb, ha, _, _, hr⟩ :=
    insertion [base, aimed] [bare, narrow] new narrow 3 rfl
  rw [hbefore] at hb
  rw [hafter] at ha
  cases hb
  cases ha
  exact ⟨hs, ht, by decide, by decide, hbefore, hafter, hr rfl rfl⟩

end Component

end SfcTheme

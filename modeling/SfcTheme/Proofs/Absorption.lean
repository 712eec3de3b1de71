import SfcTheme.Lint.Verdict
import SfcTheme.Proofs.FixedPoint

set_option autoImplicit false

namespace SfcTheme

namespace Style

def Unsteered (s : Style) : Prop := ∀ name ∈ steeringNames, s.attrs.get? name = none

theorem unsteered_emitted (s : Style) (f : Fate) : (s.emitted f).Unsteered :=
  fun _ h => get?_emitted h

section

variable {s : Style} (h : s.Unsteered)

include h

theorem Unsteered.has {name : Text} (hn : name ∈ steeringNames) : s.attrs.has name = false := by
  rw [OrderedMap.has, h name hn]
  rfl

theorem Unsteered.text? {name : Text} (hn : name ∈ steeringNames) : s.text? name = none := by
  rw [Style.text?, h name hn]
  rfl

theorem Unsteered.isThemed : s.isThemed = false := by
  rw [Style.isThemed, theme?, h.text? (by decide)]
  rfl

end

end Style

namespace Rule

open Style (Unsteered)

theorem eachStyle_eq_nil {find : Style → Nat → Option Finding} {ss : List Style}
    (h : ∀ s ∈ ss, ∀ i, find s i = none) : eachStyle find ss = [] := by
  refine List.filterMap_eq_nil_iff.2 fun (s, i) hm => h s ?_ i
  exact List.fst_mem_of_mem_zipIdx hm

theorem duplicatesAfter_eq_nil {ss : List Style} (h : ∀ s ∈ ss, s.id? = none)
    (seen : List (Text × Nat)) (i : Nat) : duplicatesAfter seen i ss = [] := by
  induction ss generalizing i with
  | nil => rfl
  | cons s ss ih =>
    obtain ⟨hs, hss⟩ := List.forall_mem_cons.1 h
    simp only [duplicatesAfter, hs, ih hss]

section

variable {c : Component} (h : ∀ s ∈ c.styles, s.Unsteered)

include h

theorem themeHasValue_eq_nil : themeHasValue c = [] :=
  eachStyle_eq_nil fun s hs _ => by
    have ht : s.attrs.has "theme" = false := (h s hs).has (by decide)
    exact if_neg (by simp only [ht, Bool.false_and, Bool.false_eq_true, not_false_eq_true])

theorem replaceOnBaseBlock_eq_nil : replaceOnBaseBlock c = [] :=
  eachStyle_eq_nil fun s hs _ => by
    have hr : s.attrs.has "replace" = false := (h s hs).has (by decide)
    exact if_neg (by simp only [hr, Bool.and_false, Bool.false_eq_true, not_false_eq_true])

theorem replaceTargetExists_eq_nil : replaceTargetExists c = [] :=
  eachStyle_eq_nil fun s hs _ => by
    rw [(h s hs).isThemed]

theorem duplicateIds_eq_nil : duplicateIds c = [] :=
  duplicatesAfter_eq_nil (fun s hs => (h s hs).text? (by decide)) [] 0

end

end Rule

namespace Component

theorem findings_eq_nil {c : Component} (h : ∀ s ∈ c.styles, s.Unsteered) : c.findings [] = [] := by
  simp only [findings, Rule.builtin, List.map_cons, List.map_nil, List.append_nil,
    List.flatMap_cons, List.flatMap_nil, Rule.themeHasValue_eq_nil h,
    Rule.replaceOnBaseBlock_eq_nil h, Rule.replaceTargetExists_eq_nil h, Rule.duplicateIds_eq_nil h]

theorem unsteered_themed (c : Component) (theme : Option Text) :
    ∀ s ∈ (c.themed theme).styles, s.Unsteered := by
  intro s hs
  obtain ⟨d, _, rfl⟩ := List.mem_map.1 hs
  exact d.unsteered_emitted _

theorem themedAll_themed (c : Component) (theme : Option Text) (themes : List (Option Text)) :
    (c.themed theme).themedAll themes = c.themed theme := by
  induction themes with
  | nil => rfl
  | cons t ts ih => rwa [themedAll, List.foldl_cons, themed_themed]

theorem fate_of_mem_decisions_themed {c : Component} {theme later : Option Text} {d : Decision}
    (h : d ∈ decisions (c.themed theme).styles later) : d.fate = .base := by
  obtain ⟨⟨s, i⟩, hm, rfl⟩ := List.mem_map.1 h
  exact fate_of_mem_themed (List.fst_mem_of_mem_zipIdx hm) later

/-- Whatever was wrong with the theming of a component, its first theme leaves base blocks that every
theme keeps and that no rule objects to. -/
theorem themed_absorbs (c : Component) (theme : Option Text) :
    (∀ themes, c.themedAll (theme :: themes) = c.themed theme) ∧
      (∀ later, (decisions (c.themed theme).styles later).map
          (fun d => (d.fate.suppressed, d.fate.reason)) =
        List.replicate c.styles.length (false, ("base block" : Text))) ∧
      (c.themed theme).findings [] = [] := by
  refine ⟨themedAll_themed c theme, fun later => ?_, findings_eq_nil (c.unsteered_themed theme)⟩
  refine List.eq_replicate_iff.2 ⟨by simp [decisions, themed], fun _ hp => ?_⟩
  obtain ⟨d, hd, rfl⟩ := List.mem_map.1 hp
  rw [fate_of_mem_decisions_themed hd]
  rfl

end Component

end SfcTheme

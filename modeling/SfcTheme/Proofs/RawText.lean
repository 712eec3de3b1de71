import Mathlib.Data.List.Basic
import SfcTheme.Markup.CloseTag
import SfcTheme.Markup.Comment
import SfcTheme.Proofs.StartTag

/-!
Comments and raw contents end at the first closer. No closer straddles the end of what stands
before another one, so what is read depends on that text alone and not on what follows the closer.
-/

set_option autoImplicit false

namespace SfcTheme

namespace Text

theorem isPrefixOf?_eq_none_iff {lead s : Text} : lead.isPrefixOf? s = none ↔ ¬ lead <+: s := by
  rw [← Option.not_isSome_iff_eq_none, List.isSome_isPrefixOf?_eq_isPrefixOf,
    List.isPrefixOf_iff_prefix]

theorem firstRead_of_none_before {α : Type} {read : Text → Option α} {before r : Text} {a : α}
    (ha : read r = some a)
    (hn : ∀ u v, before = u ++ v → v ≠ [] → read (v ++ r) = none) :
    firstRead read (before ++ r) = some (before, a) := by
  induction before with
  | nil => cases r <;> simp [firstRead, ha]
  | cons c before ih =>
    have hc : read (c :: (before ++ r)) = none := hn [] (c :: before) rfl (by simp)
    have hb := ih fun u v h => hn (c :: u) v (by rw [h]; rfl)
    simp [firstRead, hc, hb]

theorem firstRead_none_before {α : Type} {read : Text → Option α} {s before : Text} {a : α}
    (h : firstRead read s = some (before, a)) :
    ∃ r, s = before ++ r ∧ read r = some a ∧
      ∀ u v, before = u ++ v → v ≠ [] → read (v ++ r) = none := by
  induction s generalizing before with
  | nil =>
    obtain ⟨b, hb, e⟩ := Option.map_eq_some_iff.1 h
    cases e
    exact ⟨[], rfl, hb, by simp_all⟩
  | cons c s ih =>
    unfold firstRead at h
    split at h
    · next b hb => cases h; exact ⟨c :: s, rfl, hb, by simp_all⟩
    · next hc =>
      obtain ⟨⟨b, d⟩, hb, e⟩ := Option.map_eq_some_iff.1 h
      cases e
      obtain ⟨r, rfl, ha, hn⟩ := ih hb
      refine ⟨r, rfl, ha, fun u v huv hv => ?_⟩
      cases u with
      | nil => rw [← List.nil_append v, ← huv]; exact hc
      | cons d u => exact hn u v (List.cons.inj huv).2 hv

theorem firstRead_eq_none {α : Type} {read : Text → Option α} {s : Text}
    (h : firstRead read s = none) (u v : Text) (hs : s = u ++ v) : read v = none := by
  induction s generalizing u with
  | nil =>
    obtain ⟨rfl, rfl⟩ := List.append_eq_nil_iff.1 hs.symm
    simpa [firstRead] using h
  | cons c s ih =>
    unfold firstRead at h
    split at h
    · cases h
    · next hc =>
      cases u with
      | nil =>
        obtain rfl : c :: s = v := hs
        exact hc
      | cons d u => exact ih (by simpa using h) u (List.cons.inj hs).2

end Text

namespace Comment

theorem closer_eq : closer = ['-', '-', '>'] := rfl

/-- The first closer ends a comment, so its body holds none. -/
def IsBody (body : Text) : Prop := ¬ closer <:+: body

instance : DecidablePred IsBody := fun body => inferInstanceAs (Decidable (¬ closer <:+: body))

theorem isPrefixOf?_closer_eq_none {v : Text} (hv : v ≠ []) (hb : IsBody v) (r : Text) :
    closer.isPrefixOf? (v ++ (closer ++ r)) = none := by
  match v, hv with
  | [a], _ => simp [closer, List.isPrefixOf?]
  | [a, b], _ => simp [closer, List.isPrefixOf?]
  | a :: b :: c :: v, _ =>
    rw [Option.eq_none_iff_forall_ne_some]
    intro w hw
    have h := List.append_eq_of_isPrefixOf?_eq_some hw
    rw [closer_eq] at h
    simp only [List.cons_append, List.cons.injEq] at h
    obtain ⟨rfl, rfl, rfl, _⟩ := h
    exact hb ⟨[], v, rfl⟩

theorem body?_eq_some_iff {s body r : Text} :
    body? s = some (body, r) ↔ s = body ++ closer ++ r ∧ IsBody body := by
  constructor
  · intro h
    refine ⟨body?_sound h, fun ⟨u, v, e⟩ => ?_⟩
    obtain ⟨t, rfl, ht, hn⟩ := Text.firstRead_none_before h
    have hc := hn u (closer ++ v) (by simp [← e]) (by simp [closer])
    rw [List.append_assoc, List.isPrefixOf?_eq_some_iff_append_eq.2 rfl] at hc
    cases hc
  · intro h
    obtain ⟨rfl, hb⟩ := h
    rw [List.append_assoc]
    refine Text.firstRead_of_none_before (List.isPrefixOf?_eq_some_iff_append_eq.2 rfl) fun u v e hv => ?_
    refine isPrefixOf?_closer_eq_none hv (fun hi => hb ?_) r
    exact hi.trans (e ▸ (List.suffix_append u v).isInfix)

theorem body?_eq_none_iff {s : Text} : body? s = none ↔ ¬ closer <:+: s := by
  constructor
  · intro h ⟨u, v, e⟩
    have hn := Text.firstRead_eq_none h u (closer ++ v) (by rw [← e, List.append_assoc])
    rw [List.isPrefixOf?_eq_some_iff_append_eq.2 rfl] at hn
    cases hn
  · intro h
    rw [Option.eq_none_iff_forall_ne_some]
    intro (body, r) hb
    exact h ⟨body, r, (body?_sound hb).symm⟩

theorem read?_eq_some_iff {s body r : Text} :
    read? s = some (body, r) ↔ s = source body ++ r ∧ IsBody body := by
  constructor
  · intro h
    obtain ⟨t, ht, hr⟩ := Option.bind_eq_some_iff.1 h
    obtain ⟨rfl, hb⟩ := body?_eq_some_iff.1 hr
    exact ⟨by rw [← List.append_eq_of_isPrefixOf?_eq_some ht]; simp [source], hb⟩
  · intro h
    obtain ⟨rfl, hb⟩ := h
    have h : body? (body ++ closer ++ r) = some (body, r) := body?_eq_some_iff.2 ⟨rfl, hb⟩
    rw [read?, source, List.append_assoc, List.append_assoc,
      List.isPrefixOf?_eq_some_iff_append_eq.2 rfl, Option.bind_some, ← List.append_assoc, h]

end Comment

namespace CloseTag

def IsGap (gap : Text) : Prop := ∀ c ∈ gap, Text.isBlank c = true

instance : DecidablePred IsGap := fun gap =>
  decidable_of_iff (gap.all Text.isBlank = true) List.all_eq_true

theorem IsGap.countP_eq_zero {gap : Text} (h : IsGap gap) :
    gap.countP (fun c => !Text.isBlank c) = 0 :=
  List.countP_eq_zero.2 fun c hc => by simp [h c hc]

theorem source_eq (kind gap : Text) : source kind gap = '<' :: '/' :: (kind ++ gap ++ ['>']) := rfl

theorem read?_eq_some_iff {kind s gap r : Text} :
    read? kind s = some (gap, r) ↔ s = source kind gap ++ r ∧ IsGap gap := by
  constructor
  · intro h
    refine ⟨read?_sound h, ?_⟩
    obtain ⟨t, ht, hr⟩ := Option.bind_eq_some_iff.1 h
    split at hr
    · cases hr
      exact List.all_eq_true.1 List.all_takeWhile
    · cases hr
  · intro h
    obtain ⟨rfl, hg⟩ := h
    have hd : (gap ++ '>' :: r).dropWhile Text.isBlank = '>' :: r := by
      rw [List.dropWhile_append_of_pos hg, List.dropWhile_cons_of_neg (by decide)]
    have ht : (gap ++ '>' :: r).takeWhile Text.isBlank = gap := by
      rw [List.takeWhile_append_of_pos hg, List.takeWhile_cons_of_neg (by decide),
        List.append_nil]
    have ha : ("</" ++ kind : Text).isPrefixOf? (source kind gap ++ r) = some (gap ++ '>' :: r) :=
      List.isPrefixOf?_eq_some_iff_append_eq.2 (by simp [source])
    rw [read?, ha, Option.bind_some, hd, ht]
    rfl

def Within (kind s : Text) : Prop := ∃ gap, IsGap gap ∧ source kind gap <:+: s

theorem within_iff {kind s : Text} : Within kind s ↔ (first? kind s).isSome = true := by
  constructor
  · intro h
    obtain ⟨gap, hg, u, v, rfl⟩ := h
    rw [Option.isSome_iff_ne_none]
    intro hn
    have hr := Text.firstRead_eq_none hn u (source kind gap ++ v) (by simp)
    rw [read?_eq_some_iff.2 ⟨rfl, hg⟩] at hr
    cases hr
  · intro h
    obtain ⟨⟨content, gap, r⟩, h⟩ := Option.isSome_iff_exists.1 h
    obtain ⟨t, rfl, ht⟩ := Text.firstRead_sound h
    obtain ⟨rfl, hg⟩ := read?_eq_some_iff.1 ht
    exact ⟨gap, hg, content, r, by simp⟩

instance (kind s : Text) : Decidable (Within kind s) := decidable_of_iff _ within_iff.symm

theorem Within.append_left {kind s : Text} (u : Text) (h : Within kind s) :
    Within kind (u ++ s) := by
  obtain ⟨gap, hg, hs⟩ := h
  exact ⟨gap, hg, hs.trans (List.suffix_append u s).isInfix⟩

theorem takeWhile_source {kind gap : Text} (hk : StartTag.IsName kind) (hg : IsGap gap) (r : Text) :
    (source kind gap ++ r).takeWhile (· != '>') = "</" ++ kind ++ gap := by
  have h : ∀ c ∈ ("</" ++ kind ++ gap : Text), (c != '>') = true := by
    intro c hc
    simp only [List.mem_append] at hc
    rcases hc with (hc | hc) | hc
    · simp only [String.reduceToList, List.mem_cons, List.not_mem_nil, or_false] at hc
      rcases hc with rfl | rfl <;> decide
    · exact bne_iff_ne.2 fun e => hk.end_not_mem (e ▸ hc)
    · have hb := hg c hc
      refine bne_iff_ne.2 fun e => ?_
      rw [e] at hb
      exact absurd hb (by decide)
  rw [source, List.append_assoc, List.takeWhile_append_of_pos h]
  simp

theorem read?_eq_none_of_not_within {kind gap v : Text} (hk : StartTag.IsName kind) (hg : IsGap gap)
    (hv : v ≠ []) (hn : ¬ Within kind v) (r : Text) :
    read? kind (v ++ (source kind gap ++ r)) = none := by
  rw [Option.eq_none_iff_forall_ne_some]
  intro p h
  obtain ⟨gap', r'⟩ := p
  obtain ⟨e, hg'⟩ := read?_eq_some_iff.1 h
  have hw : (v ++ (source kind gap ++ r)).takeWhile (· != '>') = "</" ++ kind ++ gap' := by
    rw [e, takeWhile_source hk hg']
  -- Without a '>' in `v` the tag ends where the close tag behind `v` ends. Up to there both have
  -- the same number of characters that are not blank, which leaves none for `v`.
  by_cases hm : '>' ∈ v
  · obtain ⟨a, b, rfl, ha⟩ := List.eq_append_cons_of_mem hm
    have hva : ∀ c ∈ a, (c != '>') = true := fun c hc => bne_iff_ne.2 fun e => ha (e ▸ hc)
    rw [List.append_assoc, List.takeWhile_append_of_pos hva] at hw
    refine hn ⟨gap', hg', [], b, ?_⟩
    simp_all [source]
  · have hvw : ∀ c ∈ v, (c != '>') = true := fun c hc => bne_iff_ne.2 fun e => hm (e ▸ hc)
    rw [List.takeWhile_append_of_pos hvw, takeWhile_source hk hg] at hw
    have hc := congrArg (List.countP fun c => !Text.isBlank c) hw
    simp only [List.countP_append, hg.countP_eq_zero, hg'.countP_eq_zero] at hc
    have hv₀ : v.countP (fun c => !Text.isBlank c) = 0 := by omega
    obtain ⟨c, v, rfl⟩ := List.exists_cons_of_ne_nil hv
    rw [source_eq kind gap'] at e
    obtain rfl := (List.cons.inj e).1
    exact absurd (List.countP_eq_zero.1 hv₀ '<' (by simp)) (by decide)

theorem first?_eq_some_iff {kind s content gap r : Text} (hk : StartTag.IsName kind) :
    first? kind s = some (content, gap, r) ↔
      s = content ++ source kind gap ++ r ∧ IsGap gap ∧ ¬ Within kind content := by
  constructor
  · intro h
    obtain ⟨t, rfl, ht, hn⟩ := Text.firstRead_none_before h
    obtain ⟨rfl, hg⟩ := read?_eq_some_iff.1 ht
    refine ⟨by simp, hg, fun ⟨gap', hg', u, v, e⟩ => ?_⟩
    have hr := hn u (source kind gap' ++ v) (by simp [← e]) (by simp [source])
    rw [List.append_assoc, read?_eq_some_iff.2 ⟨rfl, hg'⟩] at hr
    cases hr
  · intro h
    obtain ⟨rfl, hg, hw⟩ := h
    rw [List.append_assoc]
    refine Text.firstRead_of_none_before (read?_eq_some_iff.2 ⟨rfl, hg⟩) fun u v e hv => ?_
    exact read?_eq_none_of_not_within hk hg hv (fun h => hw (e ▸ h.append_left u)) r

end CloseTag

end SfcTheme

import SfcTheme.Proofs.Layout

set_option autoImplicit false

namespace SfcTheme

namespace StartTag

/-- What a tag is found to be at the start of a text: of all tags that the text begins with, the one
with the longest name. -/
structure Greedy (s : Text) (t : StartTag) (r : Text) : Prop where
  tag : t.IsTag
  eq : s = t.source ++ r
  longest : ∀ (u : StartTag) (v : Text), u.IsTag → s = u.source ++ v →
    u.name.length ≤ t.name.length

theorem length_le_of_longestName {s name i r w u : Text} (h : longestName s = some (name, i, r))
    (hs : s = w ++ u) (hw : ∀ c ∈ w, isNameChar c = true) (hu : untilTagEnd none u ≠ none) :
    w.length ≤ name.length := by
  induction s generalizing name w with
  | nil => cases h
  | cons c s ih =>
    cases w with
    | nil => exact Nat.zero_le _
    | cons d w =>
      obtain ⟨rfl, htail⟩ := List.cons.inj hs
      obtain ⟨hc, hw⟩ := List.forall_mem_cons.1 hw
      rw [longestName, if_pos hc] at h
      split at h
      · next n rest e =>
        cases h
        exact Nat.succ_le_succ (ih e htail hw)
      · next e => exact absurd (longestName_eq_none_iff.1 e w u htail hw) hu

theorem greedy_of_read? {s r : Text} {t : StartTag} (h : read? s = some (t, r)) : Greedy s t r := by
  refine ⟨isTag_of_read? h, read?_sound h, fun u v hu hs => ?_⟩
  unfold read? at h
  split at h
  · next c s =>
    split at h
    · obtain ⟨⟨name, i, r⟩, hn, e⟩ := Option.map_eq_some_iff.1 h
      cases e
      cases hname : u.name with
      | nil => exact Nat.zero_le _
      | cons d n =>
        have hu' : IsName (d :: n) := hname ▸ hu.name
        have hs' : s = n ++ (u.inside ++ '>' :: v) := by simp_all [source]
        have hend := untilTagEnd_of_isInside hu.isInside v
        have hle := length_le_of_longestName hn hs' hu'.2 (by simp [hend])
        simpa using hle
    · cases h
  · cases h

theorem Greedy.unique {s r v : Text} {t u : StartTag} (ht : Greedy s t r) (hu : Greedy s u v) :
    t = u ∧ r = v := by
  have hlen : t.name.length = u.name.length :=
    Nat.le_antisymm (hu.longest t r ht.tag ht.eq) (ht.longest u v hu.tag hu.eq)
  have e := ht.eq.symm.trans hu.eq
  simp only [source, List.cons_append, List.append_assoc, List.cons.injEq, true_and,
    List.nil_append] at e
  obtain ⟨hname, hinside⟩ := List.append_inj e hlen
  have htEnd := untilTagEnd_of_isInside ht.tag.isInside r
  rw [hinside, untilTagEnd_of_isInside hu.tag.isInside v] at htEnd
  obtain ⟨hi, hr⟩ := Prod.mk.inj (Option.some.inj htEnd)
  exact ⟨by rw [← ofInside_inside ht.tag, ← ofInside_inside hu.tag, hname, hi], hr.symm⟩

theorem read?_eq_some_iff_greedy {s r : Text} {t : StartTag} :
    read? s = some (t, r) ↔ Greedy s t r := by
  refine ⟨greedy_of_read?, fun h => ?_⟩
  cases hr : read? s with
  | none => exact absurd h.eq (read?_eq_none_iff.1 hr t r h.tag)
  | some p =>
    obtain ⟨u, v⟩ := p
    obtain ⟨rfl, rfl⟩ := (greedy_of_read? hr).unique h
    rfl

theorem read?_eq_none_of_scan {c : Char} {s : Text} (hc : isNameStart c = true)
    (h : read? ('<' :: c :: s) = none) (inside r : Text)
    (he : behindRun (c :: s) = inside ++ '>' :: r) :
    ¬ IsInside none inside := by
  intro hi
  rw [read?, if_pos hc, Option.map_eq_none_iff, longestName_eq_none_iff] at h
  have hn := h (run s) (behindRun s) (run_append_behindRun s).symm
    (List.all_eq_true.1 List.all_takeWhile)
  rw [← behindRun_cons (isNameChar_of_isNameStart hc), he, untilTagEnd_of_isInside hi] at hn
  cases hn

end StartTag

namespace Piece

theorem next_of_cutShort {c : Char} {s r : Text} {t : StartTag} (hc : StartTag.isNameStart c = true)
    (h : StartTag.read? ('<' :: c :: s) = some (t, r)) (hcut : t.CutShort (c :: s)) :
    next '<' (c :: s) = .error (.malformedAttributes t.raw) := by
  obtain ⟨q, hq, hquote, _⟩ := hcut.quote
  rw [next_tag (not_opener_of_isNameStart hc) h, ofTag, StartTag.read?_eq_none_of_quote hquote hq]

theorem kind?_of_ofTag {t : StartTag} {s r : Text} {p : Piece} (h : ofTag t s = .ok (p, r)) :
    p.kind? = some t.name := by
  unfold ofTag at h
  split at h
  · cases h
  · split at h
    · cases h; rfl
    · split at h
      · cases h
      · cases h; rfl

theorem kind?_of_next {c : Char} {s r : Text} {p : Piece} (hc : StartTag.isNameStart c = true)
    (h : next '<' (c :: s) = .ok (p, r)) : p.kind? = some (StartTag.run (c :: s)) := by
  have ho : ¬ Comment.opener <+: '<' :: c :: s := not_opener_of_isNameStart hc
  cases ht : StartTag.read? ('<' :: c :: s) with
  | none =>
    have hl : Text.isLetter c = true := Text.isLetter_of_isAlpha hc
    simp [next, Text.isPrefixOf?_eq_none_iff.2 ho, ht, ofStray, hl] at h
  | some found =>
    obtain ⟨t, rest⟩ := found
    rcases StartTag.read?_cases hc ht with hscan | hcut
    · rw [next_tag ho ht] at h
      rw [kind?_of_ofTag h, hscan.name]
    · rw [next_of_cutShort hc ht hcut] at h
      cases h

end Piece

namespace StartTag

/-- The greedy reading of a tag does no harm. What it finds is what one scan from left to right finds,
or a tag with a quote behind its name, and that is a fault. Without a quote among the name characters
the scan alone decides, and no piece is ever cut but with the whole run as its kind. -/
theorem scanned_or_cutShort {source s : Text} {lt : Nat} {c : Char}
    (hs : source.drop lt = '<' :: c :: s) (hc : isNameStart c = true) :
    (∀ t r, read? (source.drop lt) = some (t, r) ↔ Greedy (source.drop lt) t r) ∧
      (∀ t r, read? (source.drop lt) = some (t, r) →
        Scanned (c :: s) t r ∨ CutShort (c :: s) t ∧ (Component.Reaches source lt →
          ∀ deindent, Component.parse source deindent =
            .error (.ofFault source ⟨.malformedAttributes t.raw, lt⟩))) ∧
      ((∀ d ∈ run (c :: s), isQuote d = false) →
        (∀ t r, read? (source.drop lt) = some (t, r) → Scanned (c :: s) t r) ∧
        (read? (source.drop lt) = none ↔
          ∀ inside r, behindRun (c :: s) = inside ++ '>' :: r → ¬ IsInside none inside)) ∧
      (∀ p r, Piece.next '<' (c :: s) = .ok (p, r) → p.kind? = some (run (c :: s))) := by
  rw [hs]
  have hcases := fun t r => read?_cases (s := s) (r := r) (t := t) hc
  have hplain : (∀ d ∈ run (c :: s), isQuote d = false) → ∀ t r,
      read? ('<' :: c :: s) = some (t, r) → Scanned (c :: s) t r := by
    intro hq t r h
    refine (hcases t r h).resolve_right fun hcut => ?_
    obtain ⟨q, _, hquote, hm⟩ := hcut.quote
    rw [hq q hm] at hquote
    cases hquote
  refine ⟨fun t r => read?_eq_some_iff_greedy, fun t r h => ?_, fun hq => ⟨hplain hq, ?_⟩,
    fun p r => Piece.kind?_of_next hc⟩
  · refine (hcases t r h).imp_right fun hcut => ⟨hcut, fun hreach => ?_⟩
    exact Component.parse_of_reaches hreach hs (Piece.next_of_cutShort hc h hcut)
  · refine ⟨read?_eq_none_of_scan hc, fun hscan => ?_⟩
    rw [Option.eq_none_iff_forall_ne_some]
    rintro ⟨t, r⟩ h
    obtain ⟨inside, he, hi, _⟩ := (hplain hq t r h).ends
    exact hscan inside r he hi

/-- The blank between the quotes ends the run, so its quote has no partner there. -/
theorem scanned_or_cutShort_blank_between_quotes :
    let source : Text := "x<a\"b c\">"
    let tag : StartTag := ⟨['a'], "\"b c\"", false⟩
    read? (source.drop 1) = some (tag, []) ∧ run (source.drop 2) = "a\"b" ∧
      CutShort (source.drop 2) tag ∧
      ∀ deindent, Component.parse source deindent =
        .error (.ofFault source ⟨.malformedAttributes "\"b c\"", 1⟩) := by
  intro source tag
  have hread : read? (source.drop 1) = some (tag, []) := by decide
  have hrun : run (source.drop 2) = "a\"b" := by decide
  have hreach : Component.Reaches source 1 :=
    ⟨[], .step (by rfl : Piece.next 'x' (source.drop 1) = .ok (.text ['x'], source.drop 1))
      (by simp [Piece.singleton?, Piece.kind?]) .here⟩
  obtain ⟨_, hcases, _⟩ :=
    @scanned_or_cutShort source (source.drop 3) 1 'a' (by decide) (by decide)
  rcases hcases tag [] hread with hscan | ⟨hcut, hparse⟩
  · exact absurd (hscan.name.trans hrun) (by decide)
  · exact ⟨hread, hrun, hcut, hparse hreach⟩

end StartTag

end SfcTheme

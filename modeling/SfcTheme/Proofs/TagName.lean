import SfcTheme.Proofs.AttributeList
import SfcTheme.Proofs.StartTag

/-!
The name of a tag is the whole run of name characters behind its '<', or it stops in front of a quote
of the run that has to pair with one behind it. In front of a quote no attribute begins, so a tag with
attributes has the whole run as its name.
-/

set_option autoImplicit false

namespace SfcTheme

theorem AttributeList.read?_eq_none_of_head {c : Char} {s : Text} (hg : isGap c = false)
    (hn : isNameChar c = false) : read? (c :: s) = none := by
  have hs : skipGap (c :: s) = c :: s := List.dropWhile_cons_of_neg (by simp [hg])
  rw [read?, Option.map_eq_none_iff, items?]
  split
  · next h => rw [hs] at h; cases h
  · next d t h =>
    obtain ⟨rfl, rfl⟩ := List.cons.inj (hs.symm.trans h)
    split
    · rfl
    · next hr => simp [Item.read?, hn] at hr

namespace StartTag

/-- The name that a text begins with if nothing makes it give characters back. -/
def run (s : Text) : Text := s.takeWhile isNameChar

def behindRun (s : Text) : Text := s.dropWhile isNameChar

theorem run_append_behindRun (s : Text) : run s ++ behindRun s = s :=
  List.takeWhile_append_dropWhile

theorem run_cons {c : Char} (hc : isNameChar c = true) (s : Text) : run (c :: s) = c :: run s :=
  List.takeWhile_cons_of_pos hc

theorem behindRun_cons {c : Char} (hc : isNameChar c = true) (s : Text) :
    behindRun (c :: s) = behindRun s :=
  List.dropWhile_cons_of_pos hc

theorem longestName_cases {s name i r : Text} (h : longestName s = some (name, i, r)) :
    name = run s ∧ behindRun s = i ++ '>' :: r ∨
      name <+: run s ∧ name ≠ run s ∧ ∃ q ∈ i.head?, isQuote q = true ∧ q ∈ run s := by
  induction s generalizing name with
  | nil => cases h
  | cons c s ih =>
    by_cases hc : isNameChar c = true
    · rw [run_cons hc, behindRun_cons hc]
      rw [longestName, if_pos hc] at h
      split at h
      · next n rest e =>
        cases h
        rcases ih e with ⟨hn, hb⟩ | ⟨hp, hne, q, hq, hquote, hm⟩
        · exact .inl ⟨by rw [hn], hb⟩
        · exact .inr ⟨List.cons_prefix_cons.2 ⟨rfl, hp⟩, fun e => hne (List.cons.inj e).2, q, hq,
            hquote, List.mem_cons_of_mem c hm⟩
      · next e =>
        -- A tag that ends behind `c` but not behind any character after it needs `c` as a quote.
        obtain ⟨⟨j, t⟩, hj, e'⟩ := Option.map_eq_some_iff.1 h
        cases e'
        refine .inr ⟨List.nil_prefix, by simp, ?_⟩
        have hgt : c ≠ '>' := fun e => absurd hc (by rw [e]; decide)
        rw [untilTagEnd, if_neg hgt] at hj
        cases hq : isQuote c with
        | true =>
          obtain ⟨⟨k, u⟩, _, e'⟩ := Option.map_eq_some_iff.1 hj
          cases e'
          exact ⟨c, rfl, hq, List.mem_cons_self⟩
        | false =>
          have hn := longestName_eq_none_iff.1 e [] s rfl (List.forall_mem_nil _)
          simp [hq, hn] at hj
    · have hrun : run (c :: s) = [] := List.takeWhile_cons_of_neg hc
      have hbehind : behindRun (c :: s) = c :: s := List.dropWhile_cons_of_neg hc
      have hs := longestName_sound h
      rw [longestName, if_neg hc] at h
      obtain ⟨⟨j, t⟩, hj, e'⟩ := Option.map_eq_some_iff.1 h
      cases e'
      exact .inl ⟨hrun.symm, by rw [hbehind, hs]; rfl⟩

theorem ofInside_inside {t : StartTag} (h : t.IsTag) : ofInside t.name t.inside = t := by
  obtain ⟨name, raw, selfClosing⟩ := t
  cases selfClosing with
  | true => simp [ofInside, inside]
  | false => simp [ofInside, inside, h.slash rfl]

theorem head?_raw_of_quote {t : StartTag} {q : Char} (hq : isQuote q = true)
    (h : t.inside.head? = some q) : t.raw.head? = some q := by
  unfold inside at h
  split at h
  · cases hr : t.raw with
    | nil =>
      rw [hr] at h
      cases h
      exact absurd hq (by decide)
    | cons d raw => rwa [hr] at h
  · exact h

theorem read?_eq_none_of_quote {t : StartTag} {q : Char} (hq : isQuote q = true)
    (h : t.raw.head? = some q) : AttributeList.read? t.raw = none := by
  obtain ⟨s, hs⟩ := List.head?_eq_some_iff.1 h
  rw [hs]
  simp only [isQuote, Bool.or_eq_true, beq_iff_eq] at hq
  rcases hq with rfl | rfl <;> exact AttributeList.read?_eq_none_of_head (by decide) (by decide)

/-- A tag that one scan behind the whole run finds: its end is the first '>' outside quotes, and a
slash in front of that closes it. -/
structure Scanned (s : Text) (t : StartTag) (r : Text) : Prop where
  name : t.name = run s
  ends : ∃ inside, behindRun s = inside ++ '>' :: r ∧ IsInside none inside ∧
    (t.selfClosing = true ↔ inside.getLast? = some '/') ∧
    t.raw = if t.selfClosing then inside.dropLast else inside

/-- A tag whose name has given characters back: what comes first behind the name is a quote. -/
structure CutShort (s : Text) (t : StartTag) : Prop where
  start : t.name <+: run s
  proper : t.name ≠ run s
  quote : ∃ q ∈ t.raw.head?, isQuote q = true ∧ q ∈ run s

theorem scanned_ofInside {s name i r : Text} (hn : name = run s)
    (he : behindRun s = i ++ '>' :: r) (hi : IsInside none i) : Scanned s (ofInside name i) r := by
  refine ⟨(name_ofInside name i).trans hn, i, he, hi, ?_⟩
  by_cases h : i.getLast? = some '/' <;> simp [ofInside, h]

theorem read?_cases {c : Char} {s r : Text} {t : StartTag} (hc : isNameStart c = true)
    (h : read? ('<' :: c :: s) = some (t, r)) :
    Scanned (c :: s) t r ∨ CutShort (c :: s) t := by
  have hrun := run_cons (isNameChar_of_isNameStart hc) s
  have hbehind := behindRun_cons (isNameChar_of_isNameStart hc) s
  rw [read?, if_pos hc] at h
  obtain ⟨⟨name, i, r⟩, hn, e⟩ := Option.map_eq_some_iff.1 h
  cases e
  rcases longestName_cases hn with ⟨hname, he⟩ | ⟨hp, hne, q, hq, hquote, hm⟩
  · exact .inl (scanned_ofInside (by rw [hrun, hname]) (hbehind.trans he)
      (isInside_of_longestName hn))
  · refine .inr ⟨?_, ?_, q, head?_raw_of_quote hquote (by rwa [inside_ofInside]), hquote, ?_⟩
    · rw [hrun, name_ofInside]
      exact List.cons_prefix_cons.2 ⟨rfl, hp⟩
    · rw [hrun, name_ofInside]
      exact fun e => hne (List.cons.inj e).2
    · rw [hrun]
      exact List.mem_cons_of_mem c hm

/-- A tag whose name is the whole run of name characters behind its '<'. -/
structure IsWhole (t : StartTag) : Prop extends t.IsTag where
  name_eq_run : t.name = StartTag.run (t.name ++ t.inside)

theorem run_append {name : Text} (hn : ∀ c ∈ name, isNameChar c = true) (s : Text) :
    run (name ++ s) = name ++ run s :=
  List.takeWhile_append_of_pos hn

theorem run_eq_nil_iff {s : Text} : run s = [] ↔ ∀ c ∈ s.head?, isNameChar c = false := by
  cases s with
  | nil => simp [run]
  | cons c s => simp [run, List.takeWhile_cons]

theorem isWhole_iff {t : StartTag} :
    t.IsWhole ↔ t.IsTag ∧ ∀ c ∈ t.inside.head?, isNameChar c = false := by
  rw [← run_eq_nil_iff]
  constructor
  · intro h
    have hr := h.name_eq_run
    rw [run_append h.name.isNameChar] at hr
    exact ⟨h.toIsTag, List.self_eq_append_right.1 hr⟩
  · intro h
    obtain ⟨ht, hr⟩ := h
    exact ⟨ht, by rw [run_append ht.name.isNameChar, hr, List.append_nil]⟩

theorem exists_cons_of_read? {s r : Text} {t : StartTag} (h : read? s = some (t, r)) :
    ∃ c u, s = '<' :: c :: u ∧ isNameStart c = true := by
  unfold read? at h
  split at h
  · next c u =>
    split at h
    · next hc => exact ⟨c, u, rfl, hc⟩
    · cases h
  · cases h

/-- A name that gives characters back stops in front of a quote, and the tag has no attributes. -/
theorem isWhole_of_read? {s r : Text} {t : StartTag} {attrs : Attrs} (h : read? s = some (t, r))
    (ha : AttributeList.read? t.raw = some attrs) : t.IsWhole := by
  have ht := isTag_of_read? h
  have hs := read?_sound h
  obtain ⟨c, u, rfl, hc⟩ := exists_cons_of_read? h
  rcases read?_cases hc h with hscan | hcut
  · have hu : c :: u = t.name ++ (t.inside ++ '>' :: r) := by simpa [source] using hs
    have hr : t.name = t.name ++ run (t.inside ++ '>' :: r) := by
      rw [← run_append ht.name.isNameChar, ← hu]
      exact hscan.name
    have hend := run_eq_nil_iff.1 (List.self_eq_append_right.1 hr)
    exact isWhole_iff.2 ⟨ht, fun d hd => hend d (by rw [List.head?_append, hd]; rfl)⟩
  · obtain ⟨q, hq, hquote, _⟩ := hcut.quote
    rw [read?_eq_none_of_quote hquote hq] at ha
    cases ha

theorem read?_of_isWhole {t : StartTag} (h : t.IsWhole) (r : Text) :
    read? (t.source ++ r) = some (t, r) := by
  obtain ⟨ht, hi⟩ := isWhole_iff.1 h
  cases hname : t.name with
  | nil => exact absurd ht.name (by rw [hname]; exact id)
  | cons c n =>
    have hn : IsName (c :: n) := hname ▸ ht.name
    have e : t.source ++ r = '<' :: c :: (n ++ (t.inside ++ '>' :: r)) := by simp [source, hname]
    have hback : ofInside (c :: n) t.inside = t := by rw [← hname, ofInside_inside ht]
    rw [e, read?, if_pos hn.1, longestName_of_stop hn.2 ht.isInside hi r]
    exact congrArg (fun t => some (t, r)) hback

end StartTag

end SfcTheme

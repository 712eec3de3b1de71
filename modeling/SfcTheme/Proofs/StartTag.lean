import SfcTheme.Markup.StartTag

set_option autoImplicit false

namespace SfcTheme

namespace StartTag

/-- An ASCII letter and then whatever stands before the next blank, slash or '>'. -/
def IsName : Text → Prop
  | [] => False
  | c :: s => isNameStart c = true ∧ ∀ d ∈ s, isNameChar d = true

instance : DecidablePred IsName
  | [] => inferInstanceAs (Decidable False)
  | c :: s => decidable_of_iff ((isNameStart c && s.all isNameChar) = true) (by simp [IsName])

theorem isNameChar_of_isNameStart {c : Char} (h : isNameStart c = true) : isNameChar c = true := by
  have h : (decide (c.val ≥ 'A'.val ∧ c.val ≤ 'Z'.val) ||
      decide (c.val ≥ 'a'.val) && decide (c.val ≤ 'z'.val)) = true := h
  simp only [Bool.or_eq_true, Bool.and_eq_true, decide_eq_true_eq, ge_iff_le,
    UInt32.le_iff_toNat_le] at h
  have hA : 'A'.val.toNat = 65 ∧ 'Z'.val.toNat = 90 ∧ 'a'.val.toNat = 97 ∧ 'z'.val.toNat = 122 := by
    decide
  have hb : Text.isBlank c = false := by
    simp only [Text.isBlank, Text.inRanges, Text.blankRanges, Char.toNat, List.any_cons,
      List.any_nil, Bool.or_false, Bool.or_eq_false_iff, Bool.and_eq_false_iff,
      decide_eq_false_iff_not]
    omega
  have hs : c ≠ '/' := fun e => by rw [e] at h; revert h; decide
  have hg : c ≠ '>' := fun e => by rw [e] at h; revert h; decide
  simp [isNameChar, hb, hs, hg]

theorem IsName.isNameChar {name : Text} (h : IsName name) : ∀ c ∈ name, isNameChar c = true := by
  cases name with
  | nil => cases h
  | cons d s => exact List.forall_mem_cons.2 ⟨isNameChar_of_isNameStart h.1, h.2⟩

theorem IsName.end_not_mem {name : Text} (h : IsName name) : '>' ∉ name := by
  intro hc
  have := h.isNameChar _ hc
  simp [StartTag.isNameChar] at this

/-- Text between a name and the end of its tag: a '>' stands in it between quotes alone. The first
argument is the quote that is open where the text begins. -/
inductive IsInside : Option Char → Text → Prop where
  | done : IsInside none []
  | plain {c : Char} {s : Text} :
      c ≠ '>' → isQuote c = false → IsInside none s → IsInside none (c :: s)
  | opens {c : Char} {s : Text} : isQuote c = true → IsInside (some c) s → IsInside none (c :: s)
  | quoted {q c : Char} {s : Text} : c ≠ q → IsInside (some q) s → IsInside (some q) (c :: s)
  | closes {q : Char} {s : Text} : IsInside none s → IsInside (some q) (q :: s)

theorem IsInside.append {q : Option Char} {s t : Text} (hs : IsInside q s) (ht : IsInside none t) :
    IsInside q (s ++ t) := by
  induction hs with
  | done => exact ht
  | plain hc hq _ ih => exact .plain hc hq ih
  | opens hq _ ih => exact .opens hq ih
  | quoted hc _ ih => exact .quoted hc ih
  | closes _ ih => exact .closes ih

theorem isInside_of_forall {s : Text} (h : ∀ c ∈ s, c ≠ '>' ∧ isQuote c = false) :
    IsInside none s := by
  induction s with
  | nil => exact .done
  | cons c s ih =>
    have hc := h c (by simp)
    exact .plain hc.1 hc.2 (ih fun d hd => h d (by simp [hd]))

theorem isInside_quoted {q : Char} {v : Text} (hv : q ∉ v) : IsInside (some q) (v ++ [q]) := by
  induction v with
  | nil => exact .closes .done
  | cons c v ih =>
    rw [List.mem_cons, not_or] at hv
    exact .quoted (Ne.symm hv.1) (ih hv.2)

theorem IsInside.dropSlash {q : Option Char} {s : Text} (hq : ∀ c, q = some c → isQuote c = true)
    (h : IsInside q (s ++ ['/'])) : IsInside q s := by
  induction s generalizing q with
  | nil =>
    cases h with
    | plain _ _ h => exact h
    | opens hc _ => exact absurd hc (by decide)
    | quoted _ h => cases h
    | closes h => exact absurd (hq _ rfl) (by decide)
  | cons c s ih =>
    cases h with
    | plain hc hn h => exact .plain hc hn (ih hq h)
    | opens hc h => exact .opens hc (ih (fun d hd => Option.some.inj hd ▸ hc) h)
    | quoted hc h => exact .quoted hc (ih hq h)
    | closes h => exact .closes (ih (fun d hd => by cases hd) h)

theorem untilTagEnd_of_isInside {q : Option Char} {i : Text} (h : IsInside q i) (r : Text) :
    untilTagEnd q (i ++ '>' :: r) = some (i, r) := by
  induction h with
  | done => simp [untilTagEnd]
  | plain hc hq _ ih => simp [untilTagEnd, hc, hq, ih]
  | @opens c _ hq _ ih =>
    have hc : c ≠ '>' := fun e => by rw [e] at hq; exact absurd hq (by decide)
    simp [untilTagEnd, hc, hq, ih]
  | quoted hc _ ih => simp [untilTagEnd, hc, ih]
  | closes _ ih => simp [untilTagEnd, ih]

theorem isInside_of_untilTagEnd {q : Option Char} {s i r : Text}
    (h : untilTagEnd q s = some (i, r)) : IsInside q i := by
  induction s generalizing q i with
  | nil => cases q <;> cases h
  | cons c s ih =>
    cases q with
    | none =>
      unfold untilTagEnd at h
      split at h
      · cases h; exact .done
      · next hc =>
        obtain ⟨⟨j, t⟩, hj, e⟩ := Option.map_eq_some_iff.1 h
        cases e
        cases hq : isQuote c with
        | true => exact .opens hq (ih (by simpa [hq] using hj))
        | false => exact .plain hc hq (ih (by simpa [hq] using hj))
    | some q =>
      obtain ⟨⟨j, t⟩, hj, e⟩ := Option.map_eq_some_iff.1 h
      cases e
      by_cases hc : c = q
      · subst hc; exact .closes (ih (by simpa using hj))
      · exact .quoted hc (ih (by simpa [hc] using hj))

theorem untilTagEnd_eq_some_iff {q : Option Char} {s i r : Text} :
    untilTagEnd q s = some (i, r) ↔ s = i ++ '>' :: r ∧ IsInside q i := by
  constructor
  · exact fun h => ⟨untilTagEnd_sound h, isInside_of_untilTagEnd h⟩
  · intro h
    obtain ⟨rfl, hi⟩ := h
    exact untilTagEnd_of_isInside hi r

theorem untilTagEnd_append {q : Option Char} {s i r : Text} (h : untilTagEnd q s = some (i, r))
    (t : Text) : untilTagEnd q (s ++ t) = some (i, r ++ t) := by
  obtain ⟨rfl, hi⟩ := untilTagEnd_eq_some_iff.1 h
  exact untilTagEnd_eq_some_iff.2 ⟨by simp, hi⟩

theorem longestName_of_stop {name i : Text} (hn : ∀ c ∈ name, isNameChar c = true)
    (hi : IsInside none i) (hs : ∀ c ∈ i.head?, isNameChar c = false) (r : Text) :
    longestName (name ++ (i ++ '>' :: r)) = some (name, i, r) := by
  induction name with
  | nil =>
    have hu := untilTagEnd_of_isInside hi r
    cases i with
    | nil => simp [longestName, isNameChar, untilTagEnd]
    | cons d i =>
      have hd : isNameChar d = false := hs d rfl
      rw [List.cons_append] at hu
      simp [longestName, hd, hu]
  | cons c name ih =>
    have hc : isNameChar c = true := hn c (by simp)
    simp [longestName, hc, ih fun d hd => hn d (by simp [hd])]

theorem isNameChar_of_longestName {s name i r : Text} (h : longestName s = some (name, i, r)) :
    ∀ c ∈ name, isNameChar c = true := by
  induction s generalizing name with
  | nil => cases h
  | cons c s ih =>
    unfold longestName at h
    split at h
    · next n rest e =>
      cases h
      split at e
      · next hc => exact List.forall_mem_cons.2 ⟨hc, ih e⟩
      · cases e
    · obtain ⟨⟨j, t⟩, _, e⟩ := Option.map_eq_some_iff.1 h
      cases e
      exact fun c hc => absurd hc List.not_mem_nil

theorem isInside_of_longestName {s name i r : Text} (h : longestName s = some (name, i, r)) :
    IsInside none i := by
  induction s generalizing name with
  | nil => cases h
  | cons c s ih =>
    unfold longestName at h
    split at h
    · next n rest e =>
      cases h
      split at e
      · exact ih e
      · cases e
    · obtain ⟨⟨j, t⟩, hj, e⟩ := Option.map_eq_some_iff.1 h
      cases e
      exact isInside_of_untilTagEnd hj

theorem longestName_eq_none_iff {s : Text} :
    longestName s = none ↔
      ∀ w u, s = w ++ u → (∀ c ∈ w, isNameChar c = true) → untilTagEnd none u = none := by
  induction s with
  | nil =>
    refine ⟨fun _ w u h _ => ?_, fun _ => rfl⟩
    rw [(List.append_eq_nil_iff.1 h.symm).2]
    rfl
  | cons c s ih =>
    have hl : longestName (c :: s) = none ↔
        (isNameChar c = true → longestName s = none) ∧ untilTagEnd none (c :: s) = none := by
      rw [longestName]
      by_cases hc : isNameChar c = true
      · rw [if_pos hc]
        cases longestName s <;> simp [hc]
      · rw [if_neg hc]
        simp [hc]
    rw [hl, ih]
    constructor
    · intro ⟨hs, hu⟩ w u h hw
      cases w with
      | nil =>
        obtain rfl : c :: s = u := h
        exact hu
      | cons d w =>
        obtain ⟨rfl, hs'⟩ := List.cons.inj h
        obtain ⟨hc, hw⟩ := List.forall_mem_cons.1 hw
        exact hs hc w u hs' hw
    · intro h
      refine ⟨fun hc w u hs hw => ?_, h [] _ rfl (by simp)⟩
      exact h (c :: w) u (by rw [hs]; rfl) (List.forall_mem_cons.2 ⟨hc, hw⟩)

/-- A tag keeps no slash that would close it. -/
structure IsTag (t : StartTag) : Prop where
  name : IsName t.name
  raw : IsInside none t.raw
  slash : t.selfClosing = false → t.raw.getLast? ≠ some '/'

theorem isTag_ofInside {name i : Text} (hn : IsName name) (hi : IsInside none i) :
    (ofInside name i).IsTag := by
  unfold ofInside
  split
  · next h =>
    obtain ⟨l, rfl⟩ := List.getLast?_eq_some_iff.1 h
    have hl : IsInside none l := hi.dropSlash fun c hc => by cases hc
    exact ⟨hn, by simpa using hl, fun h => by cases h⟩
  · next h => exact ⟨hn, hi, fun _ => h⟩

theorem isTag_of_read? {s r : Text} {t : StartTag} (h : read? s = some (t, r)) : t.IsTag := by
  unfold read? at h
  split at h
  · split at h
    · next hc =>
      obtain ⟨⟨n, i, u⟩, hn, e⟩ := Option.map_eq_some_iff.1 h
      cases e
      exact isTag_ofInside ⟨hc, isNameChar_of_longestName hn⟩ (isInside_of_longestName hn)
    · cases h
  · cases h

theorem IsTag.isInside {t : StartTag} (h : t.IsTag) : IsInside none t.inside := by
  unfold inside
  split
  · exact h.raw.append (.plain (by decide) (by decide) .done)
  · exact h.raw

theorem read?_eq_none_iff {s : Text} :
    read? s = none ↔ ∀ (t : StartTag) (r : Text), t.IsTag → s ≠ t.source ++ r := by
  constructor
  · intro h t r ht hs
    subst hs
    cases hn : t.name with
    | nil => exact absurd ht.name (by rw [hn]; exact id)
    | cons c n =>
      have hc : IsName (c :: n) := hn ▸ ht.name
      have e : t.source ++ r = '<' :: c :: (n ++ (t.inside ++ '>' :: r)) := by simp [source, hn]
      rw [e, read?, if_pos hc.1, Option.map_eq_none_iff, longestName_eq_none_iff] at h
      have hu := h n _ rfl hc.2
      rw [untilTagEnd_of_isInside ht.isInside] at hu
      cases hu
  · intro h
    rw [Option.eq_none_iff_forall_ne_some]
    rintro ⟨t, r⟩ ht
    exact h t r (isTag_of_read? ht) (read?_sound ht)

end StartTag

end SfcTheme

import Mathlib.Algebra.GroupWithZero.Nat
import Mathlib.Data.List.TakeWhile
import SfcTheme.Text.Line

set_option autoImplicit false

namespace SfcTheme

namespace Text

@[simp] theorem lines_newline (s : Text) : lines ('\n' :: s) = [] :: lines s := by
  simp [lines, List.splitOn_cons_eq_if_modifyHead]

theorem lines_cons {c : Char} {s l : Text} {ls : List Text} (hc : c ≠ '\n')
    (h : lines s = l :: ls) : lines (c :: s) = (c :: l) :: ls := by
  rw [lines] at h ⊢
  simp [List.splitOn_cons_eq_if_modifyHead, hc, h]

/-- How many characters are in front of the line at an index, a line feed for each line above. -/
def lineStart (ls : List Text) (i : Nat) : Nat := ((ls.take i).map fun l => l.length + 1).sum

@[simp] theorem lineStart_zero (ls : List Text) : lineStart ls 0 = 0 := by simp [lineStart]

@[simp] theorem lineStart_cons_succ (l : Text) (ls : List Text) (i : Nat) :
    lineStart (l :: ls) (i + 1) = l.length + 1 + lineStart ls i := by simp [lineStart]

theorem lineStart_succ {ls : List Text} {i : Nat} (h : i < ls.length) :
    lineStart ls (i + 1) = lineStart ls i + (ls[i].length + 1) := by
  rw [lineStart, List.take_succ_eq_append_getElem h, List.map_append, List.sum_append]
  simp [lineStart]

theorem lineStart_mono (ls : List Text) {i j : Nat} (h : i ≤ j) :
    lineStart ls i ≤ lineStart ls j := by
  obtain ⟨d, rfl⟩ := Nat.exists_eq_add_of_le h
  rw [lineStart, lineStart, List.take_add, List.map_append, List.sum_append]
  exact Nat.le_add_right _ _

theorem lineStart_length_lines (s : Text) :
    lineStart (lines s) (lines s).length = s.length + 1 := by
  induction s with
  | nil => rfl
  | cons c s ih =>
    by_cases hc : c = '\n'
    · subst hc
      rw [lines_newline, List.length_cons, lineStart_cons_succ, ih]
      simp [Nat.add_comm]
    · obtain ⟨l, ls, hl⟩ := List.exists_cons_of_ne_nil (lines_ne_nil s)
      rw [hl, List.length_cons, lineStart_cons_succ] at ih
      rw [lines_cons hc hl, List.length_cons, lineStart_cons_succ, List.length_cons,
        List.length_cons]
      omega

end Text

namespace Position

open Text (lines lineStart)

/-- A line of the list, and a column in it or just behind it. -/
structure Within (ls : List Text) (p : Position) : Prop where
  line_pos : 1 ≤ p.line
  line_le : p.line ≤ ls.length
  column_pos : 1 ≤ p.column
  column_le : p.column ≤ ls[p.line - 1].length + 1

/-- How many characters are in front of a position. -/
def offset (ls : List Text) (p : Position) : Nat := lineStart ls (p.line - 1) + p.column - 1

def Before (p q : Position) : Prop := p.line < q.line ∨ p.line = q.line ∧ p.column < q.column

section Order

variable {ls : List Text} {p q : Position}

theorem Within.lineStart_le_offset (h : p.Within ls) : lineStart ls (p.line - 1) ≤ p.offset ls := by
  have hc := h.column_pos
  rw [offset]
  omega

theorem Within.offset_lt_lineStart (h : p.Within ls) : p.offset ls < lineStart ls p.line := by
  have hl := h.line_pos
  have hi : p.line - 1 < ls.length := by
    have := h.line_le
    omega
  have hs := Text.lineStart_succ hi
  rw [Nat.sub_add_cancel hl] at hs
  have hc := h.column_le
  rw [offset]
  omega

theorem Within.offset_lt (hp : p.Within ls) (hq : q.Within ls) (h : p.Before q) :
    p.offset ls < q.offset ls := by
  rcases h with hlt | ⟨heq, hlt⟩
  · calc p.offset ls < lineStart ls p.line := hp.offset_lt_lineStart
      _ ≤ lineStart ls (q.line - 1) := Text.lineStart_mono ls (by omega)
      _ ≤ q.offset ls := hq.lineStart_le_offset
  · have hc := hp.column_pos
    rw [offset, offset, heq]
    omega

theorem before_trichotomy (p q : Position) : p.Before q ∨ p = q ∨ q.Before p := by
  obtain ⟨l, c⟩ := p
  obtain ⟨m, d⟩ := q
  simp only [Before, mk.injEq]
  omega

theorem Within.eq_of_offset_eq (hp : p.Within ls) (hq : q.Within ls)
    (h : p.offset ls = q.offset ls) : p = q := by
  rcases before_trichotomy p q with hb | he | hb
  · exact absurd h (Nat.ne_of_lt (hp.offset_lt hq hb))
  · exact he
  · exact absurd h (Nat.ne_of_gt (hq.offset_lt hp hb))

theorem Within.before_of_offset_lt (hp : p.Within ls) (hq : q.Within ls)
    (h : p.offset ls < q.offset ls) : p.Before q := by
  rcases before_trichotomy p q with hb | he | hb
  · exact hb
  · exact absurd (congrArg (offset ls) he) (Nat.ne_of_lt h)
  · exact absurd (hq.offset_lt hp hb) (Nat.lt_asymm h)

end Order

def behind (c : Char) (p : Position) : Position :=
  if c = '\n' then ⟨p.line + 1, p.column⟩
  else if p.line = 1 then ⟨1, p.column + 1⟩
  else p

theorem ofOffset_zero (s : Text) : ofOffset s 0 = ⟨1, 1⟩ := by
  simp [ofOffset]

theorem length_takeWhile_reverse_cons (c : Char) (u : Text) :
    ((c :: u).reverse.takeWhile (· != '\n')).length = (u.reverse.takeWhile (· != '\n')).length +
      if c ≠ '\n' ∧ Text.newlines u = 0 then 1 else 0 := by
  rw [List.reverse_cons, List.takeWhile_append]
  by_cases hu : '\n' ∈ u
  · have hn : Text.newlines u ≠ 0 := (List.count_pos_iff.2 hu).ne'
    have hw : (u.reverse.takeWhile (· != '\n')).length ≠ u.reverse.length := fun he => by
      have hall := List.takeWhile_eq_self_iff.1 ((List.takeWhile_prefix _).eq_of_length he)
      simpa using hall '\n' (List.mem_reverse.2 hu)
    rw [if_neg hw, if_neg fun h => hn h.2, Nat.add_zero]
  · have hn : Text.newlines u = 0 := List.count_eq_zero.2 hu
    have hw : u.reverse.takeWhile (· != '\n') = u.reverse :=
      List.takeWhile_eq_self_iff.2 fun d hd => by
        have : d ≠ '\n' := fun e => hu (e ▸ List.mem_reverse.1 hd)
        simpa using this
    rw [if_pos (by rw [hw]), hw]
    by_cases hc : c = '\n' <;> simp [hc, hn]

theorem ofOffset_cons (c : Char) (s : Text) (a : Nat) :
    ofOffset (c :: s) (a + 1) = (ofOffset s a).behind c := by
  have hn : Text.newlines (c :: s.take a) =
      Text.newlines (s.take a) + if c = '\n' then 1 else 0 := by
    simp [Text.newlines, List.count_cons]
  simp only [ofOffset, List.take_succ_cons, hn, length_takeWhile_reverse_cons, List.length_cons,
    Nat.add_sub_add_right, behind]
  by_cases hc : c = '\n'
  · simp [hc]
  · by_cases hu : Text.newlines (s.take a) = 0
    · simp [hc, hu]
      omega
    · simp [hc, hu]

theorem within_succ_iff {ls : List Text} {i j : Nat} :
    Within ls ⟨i + 1, j + 1⟩ ↔ ∃ l, ls[i]? = some l ∧ j ≤ l.length := by
  constructor
  · intro h
    have hi : i < ls.length := h.line_le
    exact ⟨ls[i], List.getElem?_eq_getElem hi, by simpa using h.column_le⟩
  · rintro ⟨l, hl, hj⟩
    obtain ⟨hi, rfl⟩ := List.getElem?_eq_some_iff.1 hl
    exact ⟨Nat.le_add_left 1 i, hi, Nat.le_add_left 1 j, by simpa using hj⟩

theorem Within.exists_succ {ls : List Text} {p : Position} (h : p.Within ls) :
    ∃ i j, p = ⟨i + 1, j + 1⟩ := by
  obtain ⟨line, column⟩ := p
  obtain ⟨i, rfl⟩ := Nat.exists_eq_add_of_le' h.line_pos
  obtain ⟨j, rfl⟩ := Nat.exists_eq_add_of_le' h.column_pos
  exact ⟨i, j, rfl⟩

theorem offset_succ (ls : List Text) (i j : Nat) : offset ls ⟨i + 1, j + 1⟩ = lineStart ls i + j := by
  simp [offset]

theorem within_behind {c : Char} {s : Text} {p : Position} (h : p.Within (lines s)) :
    (p.behind c).Within (lines (c :: s)) ∧
      (p.behind c).offset (lines (c :: s)) = p.offset (lines s) + 1 := by
  obtain ⟨i, j, rfl⟩ := h.exists_succ
  obtain ⟨l, hl, hj⟩ := within_succ_iff.1 h
  rw [offset_succ]
  by_cases hc : c = '\n'
  · subst hc
    rw [Text.lines_newline, behind, if_pos rfl, within_succ_iff, offset_succ]
    exact ⟨⟨l, by simpa using hl, hj⟩, by simp; omega⟩
  -- The first line is longer by `c`, so the columns move in it and the starts of the lines behind it.
  · obtain ⟨m, ms, hm⟩ := List.exists_cons_of_ne_nil (Text.lines_ne_nil s)
    rw [Text.lines_cons hc hm, behind, if_neg hc]
    rw [hm] at hl ⊢
    cases i with
    | zero =>
      obtain rfl : m = l := by simpa using hl
      rw [if_pos rfl, within_succ_iff, offset_succ]
      exact ⟨⟨c :: m, rfl, by simpa using hj⟩, by simp⟩
    | succ i =>
      rw [if_neg (by simp), within_succ_iff, offset_succ]
      exact ⟨⟨l, by simpa using hl, hj⟩, by simp; omega⟩

theorem within_ofOffset {s : Text} {a : Nat} (h : a ≤ s.length) :
    (ofOffset s a).Within (lines s) ∧ (ofOffset s a).offset (lines s) = a := by
  -- An offset further on is one in the text without its first character, so `s` varies with it.
  induction a generalizing s with
  | zero =>
    obtain ⟨l, ls, hl⟩ := List.exists_cons_of_ne_nil (Text.lines_ne_nil s)
    rw [ofOffset_zero, hl]
    exact ⟨within_succ_iff.2 ⟨l, rfl, Nat.zero_le _⟩, by simp [offset]⟩
  | succ a ih =>
    cases s with
    | nil => cases h
    | cons c s =>
      obtain ⟨hw, ho⟩ := ih (Nat.le_of_succ_le_succ h)
      rw [ofOffset_cons]
      obtain ⟨hw', ho'⟩ := within_behind (c := c) hw
      exact ⟨hw', by rw [ho', ho]⟩

theorem ofOffset_offset {s : Text} {p : Position} (h : p.Within (lines s)) :
    p.offset (lines s) ≤ s.length ∧ ofOffset s (p.offset (lines s)) = p := by
  have hle : p.offset (lines s) ≤ s.length := by
    have hlt := h.offset_lt_lineStart
    have hm := Text.lineStart_mono (lines s) h.line_le
    rw [Text.lineStart_length_lines] at hm
    omega
  obtain ⟨hw, ho⟩ := within_ofOffset hle
  exact ⟨hle, hw.eq_of_offset_eq h ho⟩

/-- The position of an offset is one in the lines of the text, and the characters of the lines above
and those to the left give the offset. Every position in the lines is met so. Positions stand in the
order of their offsets, and no two offsets have one position. -/
theorem ofOffset_identifies (source : Text) :
    (∀ a ≤ source.length, (ofOffset source a).Within (lines source) ∧
      a = (ofOffset source a).offset (lines source)) ∧
    (∀ p : Position, p.Within (lines source) →
      p.offset (lines source) ≤ source.length ∧ ofOffset source (p.offset (lines source)) = p) ∧
    (∀ a b, a < b → b ≤ source.length → (ofOffset source a).Before (ofOffset source b)) ∧
    ∀ a b, a ≤ source.length → b ≤ source.length → a ≠ b →
      ofOffset source a ≠ ofOffset source b := by
  refine ⟨fun a ha => ?_, fun p hp => ofOffset_offset hp, fun a b hlt hb => ?_,
    fun a b ha hb hne he => hne ?_⟩
  · obtain ⟨hw, ho⟩ := within_ofOffset ha
    exact ⟨hw, ho.symm⟩
  · obtain ⟨hwa, hoa⟩ := within_ofOffset (hlt.le.trans hb)
    obtain ⟨hwb, hob⟩ := within_ofOffset hb
    exact hwa.before_of_offset_lt hwb (by rwa [hoa, hob])
  · calc a = (ofOffset source a).offset (lines source) := (within_ofOffset ha).2.symm
      _ = (ofOffset source b).offset (lines source) := by rw [he]
      _ = b := (within_ofOffset hb).2

/-- A carriage return in a line, a line feed behind a line, an empty line and the end of the text. -/
theorem ofOffset_identifies_line_feeds :
    let source : Text := "\r\nab\n\n"
    (6 ≤ source.length ∧ ofOffset source 6 = ⟨4, 1⟩ ∧ (ofOffset source 6).Within (lines source) ∧
      6 = (ofOffset source 6).offset (lines source)) ∧
    (Within (lines source) ⟨2, 3⟩ ∧ offset (lines source) ⟨2, 3⟩ = 4 ∧ 4 ≤ source.length ∧
      ofOffset source 4 = ⟨2, 3⟩) ∧
    (ofOffset source 5 = ⟨3, 1⟩ ∧ (ofOffset source 4).Before (ofOffset source 5)) ∧
    ofOffset source 0 ≠ ofOffset source 1 := by
  intro source
  obtain ⟨hin, hat, hlt, hne⟩ := ofOffset_identifies source
  have h : Within (lines source) ⟨2, 3⟩ := ⟨by decide, by decide, by decide, by decide⟩
  exact ⟨⟨by decide, by decide, hin 6 (by decide)⟩, ⟨h, by decide, hat ⟨2, 3⟩ h⟩,
    ⟨by decide, hlt 4 5 (by decide) (by decide)⟩, hne 0 1 (by decide) (by decide) (by decide)⟩

end Position

end SfcTheme

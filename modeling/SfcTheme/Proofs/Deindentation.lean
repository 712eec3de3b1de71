import SfcTheme.Proofs.Layout

/-!
A margin is taken off once: what is left has none, so a second time changes nothing. Only blanks at
the starts of lines go, and no close tag comes into being where they stood.
-/

set_option autoImplicit false

namespace SfcTheme

namespace Text

theorem common_append (m s t : Text) : common (m ++ s) (m ++ t) = m ++ common s t := by
  induction m with
  | nil => rfl
  | cons c m ih => simp [common, ih]

theorem common_isPrefix (s t : Text) : common s t <+: s ∧ common s t <+: t := by
  induction s generalizing t with
  | nil => simp [common]
  | cons a s ih =>
    cases t with
    | nil => simp [common]
    | cons b t =>
      by_cases h : a = b
      · subst h; simp [common, ih t]
      · simp [common, h]

theorem foldl_common_append (m i : Text) (is : List Text) :
    (is.map (m ++ ·)).foldl common (m ++ i) = m ++ is.foldl common i := by
  induction is generalizing i with
  | nil => rfl
  | cons j is ih => rw [List.map_cons, List.foldl_cons, common_append, ih]; rfl

theorem foldl_common_isPrefix (i : Text) (is : List Text) :
    ∀ j ∈ i :: is, is.foldl common i <+: j := by
  induction is generalizing i with
  | nil => simp
  | cons k is ih =>
    have h := ih (common i k)
    have hc := h (common i k) (by simp)
    intro j hj
    rcases List.mem_cons.1 hj with rfl | hj
    · exact hc.trans (common_isPrefix _ k).1
    · rcases List.mem_cons.1 hj with rfl | hj
      · exact hc.trans (common_isPrefix i _).2
      · exact h j (List.mem_cons_of_mem _ hj)

def indentations (ls : List Text) : List Text :=
  (ls.filter fun l => !isEmptyLine l).map indentation

theorem margin_of_nil {ls : List Text} (h : indentations ls = []) : margin ls = [] := by
  rw [indentations] at h
  rw [margin, h]

theorem margin_of_cons {ls is : List Text} {i : Text} (h : indentations ls = i :: is) :
    margin ls = is.foldl common i := by
  rw [indentations] at h
  rw [margin, h]

theorem margin_isPrefix {ls : List Text} {l : Text} (hl : l ∈ ls) (ht : isEmptyLine l = false) :
    margin ls <+: indentation l := by
  have hm : indentation l ∈ indentations ls :=
    List.mem_map_of_mem (List.mem_filter.2 ⟨hl, by simp [ht]⟩)
  cases hi : indentations ls with
  | nil => rw [hi] at hm; cases hm
  | cons i is =>
    rw [margin_of_cons hi]
    exact foldl_common_isPrefix i is _ (hi ▸ hm)

theorem margin_append_drop {ls : List Text} {l : Text} (hl : l ∈ ls)
    (ht : isEmptyLine l = false) :
    l = margin ls ++ l.drop (margin ls).length ∧ ∀ c ∈ margin ls, isIndent c = true := by
  have hp := margin_isPrefix hl ht
  have hi : ∀ c ∈ indentation l, isIndent c = true := List.all_eq_true.1 List.all_takeWhile
  obtain ⟨r, hr⟩ := hp.trans (List.takeWhile_prefix isIndent)
  exact ⟨by rw [← hr]; simp, fun c hc => hi c (hp.subset hc)⟩

theorem isEmptyLine_deindentedLine {ls : List Text} {l : Text} (hl : l ∈ ls) :
    isEmptyLine (deindentedLine (margin ls) l) = isEmptyLine l := by
  unfold deindentedLine
  split
  · next h => rw [h]; rfl
  · next h =>
    obtain ⟨he, hm⟩ := margin_append_drop hl (by simpa using h)
    have ha : (margin ls).all isIndent = true := List.all_eq_true.2 hm
    conv => rhs; rw [he, isEmptyLine, List.all_append, ha, Bool.true_and]
    rfl

theorem indentation_eq_append {ls : List Text} {l : Text} (hl : l ∈ ls)
    (ht : isEmptyLine l = false) :
    indentation l = margin ls ++ indentation (deindentedLine (margin ls) l) := by
  obtain ⟨he, hm⟩ := margin_append_drop hl ht
  have hd : deindentedLine (margin ls) l = l.drop (margin ls).length := by simp [deindentedLine, ht]
  rw [hd]
  conv => lhs; rw [he, indentation, List.takeWhile_append_of_pos hm]
  rfl

/-- Nothing is left to take off: no margin, and no line of blanks alone that is not empty. -/
structure Flush (ls : List Text) : Prop where
  margin : margin ls = []
  empty : ∀ l ∈ ls, isEmptyLine l = true → l = []

theorem indentations_deindentedLines (ls : List Text) :
    indentations ls =
      (indentations (ls.map (deindentedLine (margin ls)))).map (margin ls ++ ·) := by
  have hf : (ls.map (deindentedLine (margin ls))).filter (fun l => !isEmptyLine l) =
      (ls.filter fun l => !isEmptyLine l).map (deindentedLine (margin ls)) := by
    rw [List.filter_map]
    congr 1
    exact List.filter_congr fun l hl => by simp [isEmptyLine_deindentedLine hl]
  rw [indentations, indentations, hf, List.map_map, List.map_map]
  refine List.map_congr_left fun l hl => ?_
  obtain ⟨hm, ht⟩ := List.mem_filter.1 hl
  exact indentation_eq_append hm (by simpa using ht)

theorem margin_deindentedLines (ls : List Text) :
    margin (ls.map (deindentedLine (margin ls))) = [] := by
  have hi := indentations_deindentedLines ls
  cases hj : indentations (ls.map (deindentedLine (margin ls))) with
  | nil => exact margin_of_nil hj
  | cons j js =>
    rw [hj, List.map_cons] at hi
    have hm : margin ls = margin ls ++ js.foldl common j := calc
      margin ls = (js.map (margin ls ++ ·)).foldl common (margin ls ++ j) := margin_of_cons hi
      _ = margin ls ++ js.foldl common j := foldl_common_append (margin ls) j js
    rw [margin_of_cons hj]
    simpa using hm

theorem flush_deindentedLines (ls : List Text) :
    Flush (ls.map (deindentedLine (margin ls))) where
  margin := margin_deindentedLines ls
  empty := by
    intro l hl he
    obtain ⟨m, hm, rfl⟩ := List.mem_map.1 hl
    rw [isEmptyLine_deindentedLine hm] at he
    simp [deindentedLine, he]

theorem Flush.deindentedLines {ls : List Text} (h : Flush ls) :
    ls.map (deindentedLine (Text.margin ls)) = ls := by
  have hl : ∀ l ∈ ls, deindentedLine (Text.margin ls) l = l := by
    intro l hl
    unfold deindentedLine
    split
    · next he => rw [h.empty l hl he]
    · rw [h.margin]; rfl
  rw [List.map_congr_left hl, List.map_id']

theorem lines_deindented (s : Text) :
    lines (deindented s) = (lines s).map (deindentedLine (margin (lines s))) := by
  refine List.splitOn_intercalate '\n' (fun l hl hn => ?_) (by simpa using lines_ne_nil s)
  obtain ⟨m, hm, rfl⟩ := List.mem_map.1 hl
  have hd : deindentedLine (margin (lines s)) m <:+ m := by
    unfold deindentedLine
    split
    · exact List.nil_suffix
    · exact List.drop_suffix _ m
  exact (mem_splitOn hm '\n' (hd.subset hn)).2 rfl

theorem deindented_of_flush {s : Text} (h : Flush (lines s)) : deindented s = s := by
  rw [deindented, h.deindentedLines, unlines_lines]

@[simp] theorem deindented_deindented (s : Text) : deindented (deindented s) = deindented s :=
  deindented_of_flush (lines_deindented s ▸ flush_deindentedLines (lines s))

@[simp] theorem deindented_blankedLines (s : Text) :
    deindented (blankedLines s) = blankedLines s := by
  have hl : ∀ l ∈ lines (blankedLines s), l = [] := fun l hl =>
    List.eq_nil_iff_forall_not_mem.2 fun c hc =>
      (mem_splitOn hl c hc).2 (List.eq_of_mem_replicate (mem_splitOn hl c hc).1)
  refine deindented_of_flush ⟨?_, fun l hm _ => hl l hm⟩
  refine margin_of_nil (List.map_eq_nil_iff.2 (List.filter_eq_nil_iff.2 fun l hm => ?_))
  rw [hl l hm]
  decide

/-- The second text is the first without some blanks at the starts of lines. The flag tells whether a
line starts here. -/
inductive Outdented : Bool → Text → Text → Prop where
  | done {start : Bool} : Outdented start [] []
  | keep {start : Bool} {c : Char} {s t : Text} :
      Outdented (c == '\n') s t → Outdented start (c :: s) (c :: t)
  | drop {c : Char} {s t : Text} :
      isIndent c = true → Outdented true s t → Outdented true (c :: s) t

theorem Outdented.append_indent {i s t : Text} (hi : ∀ c ∈ i, isIndent c = true)
    (h : Outdented true s t) : Outdented true (i ++ s) t := by
  induction i with
  | nil => exact h
  | cons c i ih =>
    obtain ⟨hc, hi⟩ := List.forall_mem_cons.1 hi
    exact .drop hc (ih hi)

theorem Outdented.append_left {s t : Text} (h : ∀ start, Outdented start s t) (w : Text)
    (start : Bool) : Outdented start (w ++ s) (w ++ t) := by
  induction w generalizing start with
  | nil => exact h start
  | cons c w ih => exact .keep (ih _)

theorem outdented_unlines {f : Text → Text} {ls : List Text}
    (h : ∀ l ∈ ls, ∃ i, l = i ++ f l ∧ ∀ c ∈ i, isIndent c = true) :
    Outdented true (unlines ls) (unlines (ls.map f)) := by
  induction ls with
  | nil => exact .done
  | cons l ls ih =>
    obtain ⟨⟨i, hl, hi⟩, hls⟩ := List.forall_mem_cons.1 h
    by_cases hn : ls = []
    · subst hn
      have hw := Outdented.append_indent hi (Outdented.append_left (fun _ => .done) (f l) true)
      rw [List.append_nil, ← hl] at hw
      simpa [unlines] using hw
    · have hr : ∀ start, Outdented start ('\n' :: unlines ls) ('\n' :: unlines (ls.map f)) :=
        fun _ => .keep (ih hls)
      have hw := Outdented.append_indent hi (Outdented.append_left hr (f l) true)
      rw [← List.append_assoc, ← hl] at hw
      rw [unlines, unlines, List.map_cons, List.intercalate_cons_of_ne_nil hn,
        List.intercalate_cons_of_ne_nil (by simpa using hn)]
      simpa [unlines] using hw

theorem outdented_deindented (s : Text) : Outdented true s (deindented s) := by
  have h : ∀ l ∈ lines s, ∃ i, l = i ++ deindentedLine (margin (lines s)) l ∧
      ∀ c ∈ i, isIndent c = true := by
    intro l hl
    cases he : isEmptyLine l with
    | true => exact ⟨l, by simp [deindentedLine, he], List.all_eq_true.1 he⟩
    | false =>
      have hm := margin_append_drop hl he
      exact ⟨margin (lines s), by simpa [deindentedLine, he] using hm⟩
  simpa [deindented] using outdented_unlines h

theorem Outdented.uncons {start : Bool} {s t : Text} {c : Char} (h : Outdented start s (c :: t)) :
    ∃ i s', s = i ++ c :: s' ∧ (∀ d ∈ i, isIndent d = true) ∧ (start = false → i = []) ∧
      Outdented (c == '\n') s' t := by
  generalize hw : c :: t = w at h
  induction h with
  | done => cases hw
  | @keep _ d s u h _ =>
    obtain ⟨rfl, rfl⟩ := List.cons.inj hw
    exact ⟨[], s, rfl, by simp, fun _ => rfl, h⟩
  | @drop d s u hd _ ih =>
    obtain ⟨i, s', rfl, hi, _, h⟩ := ih hw
    exact ⟨d :: i, s', rfl, List.forall_mem_cons.2 ⟨hd, hi⟩, by simp, h⟩

theorem Outdented.behind {start : Bool} {s t : Text} (u : Text) (h : Outdented start s (u ++ t)) :
    ∃ v s' start', s = v ++ s' ∧ Outdented start' s' t := by
  induction u generalizing start s with
  | nil => exact ⟨[], s, start, rfl, h⟩
  | cons c u ih =>
    obtain ⟨i, s', rfl, _, _, hs⟩ := h.uncons
    obtain ⟨v, r, start', rfl, hr⟩ := ih hs
    exact ⟨i ++ c :: v, r, start', by simp, hr⟩

theorem Outdented.word {s t w : Text} (hw : '\n' ∉ w) (h : Outdented false s (w ++ t)) :
    ∃ s', s = w ++ s' ∧ Outdented false s' t := by
  induction w generalizing s with
  | nil => exact ⟨s, rfl, h⟩
  | cons c w ih =>
    rw [List.mem_cons, not_or] at hw
    obtain ⟨i, s', rfl, _, hi, hs⟩ := h.uncons
    rw [beq_false_of_ne (Ne.symm hw.1)] at hs
    obtain ⟨r, rfl, hr⟩ := ih hw.2 hs
    exact ⟨r, by rw [hi rfl]; rfl, hr⟩

theorem isBlank_of_isIndent {c : Char} (h : isIndent c = true) : isBlank c = true := by
  rcases Bool.or_eq_true_iff.1 h with h | h <;> rw [eq_of_beq h] <;> decide

theorem Outdented.gap {start : Bool} {s t gap : Text} (hg : CloseTag.IsGap gap)
    (h : Outdented start s (gap ++ '>' :: t)) :
    ∃ gap' s', s = gap' ++ '>' :: s' ∧ CloseTag.IsGap gap' := by
  induction gap generalizing start s with
  | nil =>
    obtain ⟨i, s', rfl, hi, _⟩ := h.uncons
    exact ⟨i, s', rfl, fun c hc => isBlank_of_isIndent (hi c hc)⟩
  | cons c gap ih =>
    obtain ⟨hc, hg⟩ := List.forall_mem_cons.1 hg
    obtain ⟨i, s', rfl, hi, _, hs⟩ := h.uncons
    obtain ⟨gap', r, rfl, hg'⟩ := ih hg hs
    refine ⟨i ++ c :: gap', r, by simp, fun d hd => ?_⟩
    rcases List.mem_append.1 hd with hd | hd
    · exact isBlank_of_isIndent (hi d hd)
    · rcases List.mem_cons.1 hd with rfl | hd
      · exact hc
      · exact hg' d hd

theorem Outdented.within {start : Bool} {s t kind : Text} (hk : StartTag.IsName kind)
    (h : Outdented start s t) (ht : CloseTag.Within kind t) : CloseTag.Within kind s := by
  obtain ⟨gap, hg, u, v, rfl⟩ := ht
  have hn : '\n' ∉ '/' :: kind := by
    rw [List.mem_cons, not_or]
    exact ⟨by decide, fun hm => absurd (hk.isNameChar _ hm) (by decide)⟩
  rw [List.append_assoc] at h
  -- The tag up to its name is within one line, so it was there before. Its gap may have been longer.
  obtain ⟨a, s₁, _, rfl, h₁⟩ := h.behind u
  have e : CloseTag.source kind gap ++ v = '<' :: ('/' :: kind ++ (gap ++ '>' :: v)) := by
    simp [CloseTag.source]
  rw [e] at h₁
  obtain ⟨i, s₂, rfl, _, _, h₂⟩ := h₁.uncons
  obtain ⟨s₃, rfl, h₃⟩ := Outdented.word hn h₂
  obtain ⟨gap', r, rfl, hg'⟩ := h₃.gap hg
  exact ⟨gap', hg', a ++ i, r, by simp [CloseTag.source]⟩

end Text

namespace Block

theorem deindented_of_template {b : Block} (h : b.kind = Lexeme.kind) : b.deindented = b := if_pos h

theorem deindented_of_not_template {b : Block} (h : b.kind ≠ Lexeme.kind) :
    b.deindented = { b with content := b.content.deindented } := if_neg h

@[simp] theorem deindented_deindented (b : Block) : b.deindented.deindented = b.deindented := by
  by_cases h : b.kind = Lexeme.kind
  · rw [deindented_of_template h, deindented_of_template h]
  · have hd : b.deindented.kind ≠ Lexeme.kind := by rwa [kind_deindented]
    rw [deindented_of_not_template hd, deindented_of_not_template h]
    simp only [Text.deindented_deindented]

theorem Sound.deindented {b : Block} (h : b.Sound) : b.deindented.Sound where
  name := by rw [kind_deindented]; exact h.name
  attrs := by rw [attrs_deindented]; exact h.attrs
  content := by
    by_cases hk : b.kind = Lexeme.kind
    · rw [deindented_of_template hk]
      exact h.content
    · have hc := h.content
      rw [Enclosed, if_neg hk] at hc
      rw [deindented_of_not_template hk, Enclosed, if_neg hk]
      exact fun hw => hc ((Text.outdented_deindented b.content).within h.name hw)

end Block

end SfcTheme

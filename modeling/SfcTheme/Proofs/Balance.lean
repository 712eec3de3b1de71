import SfcTheme.Proofs.Layout

/-!
Balance. A template ends where a count of its tags comes to nothing. The tags in front of that place
are a balanced word, in which every close tag has an open tag of its own, and no other close tag of
the source stands behind such a word.
-/

set_option autoImplicit false

namespace SfcTheme

/-- A template tag that counts, with the offsets at which it begins and behind which it ends. -/
structure Bracket where
  opens : Bool
  first : Nat
  past : Nat
  deriving DecidableEq, Repr

namespace Bracket

/-- Nothing, or an open tag, a balanced word, a close tag and a balanced word. -/
inductive Balanced : List Bracket → Prop where
  | nil : Balanced []
  | nest {o c : Bracket} {w v : List Bracket} : o.opens = true → Balanced w → c.opens = false →
      Balanced v → Balanced (o :: (w ++ c :: v))

/-- An open tag and the tag that closes it: between them stands a balanced word. -/
def Paired (w : List Bracket) (i j : Nat) : Prop :=
  ∃ x o m c v, w = x ++ o :: (m ++ c :: v) ∧ o.opens = true ∧ Balanced m ∧ c.opens = false ∧
    i = x.length ∧ j = x.length + m.length + 1

/-- How many tags are open behind a word, with `depth` of them open in front of it. A close tag for
which there is none leaves no such number. -/
def height : Nat → List Bracket → Option Nat
  | depth, [] => some depth
  | depth, ⟨true, _, _⟩ :: w => height (depth + 1) w
  | 0, ⟨false, _, _⟩ :: _ => none
  | depth + 1, ⟨false, _, _⟩ :: w => height depth w

theorem height_cons_of_opens {o : Bracket} (ho : o.opens = true) (depth : Nat) (w : List Bracket) :
    height depth (o :: w) = height (depth + 1) w := by
  obtain ⟨opens, first, past⟩ := o
  cases ho
  rw [height]

theorem height_zero_cons_of_closes {c : Bracket} (hc : c.opens = false) (w : List Bracket) :
    height 0 (c :: w) = none := by
  obtain ⟨opens, first, past⟩ := c
  cases hc
  rw [height]

theorem height_succ_cons_of_closes {c : Bracket} (hc : c.opens = false) (depth : Nat)
    (w : List Bracket) : height (depth + 1) (c :: w) = height depth w := by
  obtain ⟨opens, first, past⟩ := c
  cases hc
  rw [height]

theorem height_append (depth : Nat) (u v : List Bracket) :
    height depth (u ++ v) = (height depth u).bind fun d => height d v := by
  induction u generalizing depth with
  | nil => rfl
  | cons b u ih =>
    obtain ⟨_ | _, first, past⟩ := b
    · cases depth with
      | zero => rfl
      | succ depth => exact ih depth
    · exact ih (depth + 1)

theorem Balanced.height_eq {w : List Bracket} (h : Balanced w) (depth : Nat) :
    height depth w = some depth := by
  induction h generalizing depth with
  | nil => rfl
  | nest ho _ hc _ ihw ihv =>
    rw [height_cons_of_opens ho, height_append, ihw, Option.bind_some,
      height_succ_cons_of_closes hc, ihv]

inductive Closes : Nat → List Bracket → Prop where
  | balanced {w : List Bracket} : Balanced w → Closes 0 w
  | behind {depth : Nat} {c : Bracket} {w v : List Bracket} : Balanced w → c.opens = false →
      Closes depth v → Closes (depth + 1) (w ++ c :: v)

theorem closes_of_height {depth : Nat} {w : List Bracket} (h : height depth w = some 0) :
    Closes depth w := by
  induction w generalizing depth with
  | nil =>
    obtain rfl : depth = 0 := Option.some.inj h
    exact .balanced .nil
  | cons b w ih =>
    cases hb : b.opens with
    | true =>
      rw [height_cons_of_opens hb] at h
      cases ih h with
      | @behind _ c m v hm hc hv =>
        cases hv with
        | balanced hv => exact .balanced (.nest hb hm hc hv)
        | @behind depth c' m' v' hm' hc' hv' =>
          have e : b :: (m ++ c :: (m' ++ c' :: v')) = b :: (m ++ c :: m') ++ c' :: v' := by simp
          rw [e]
          exact .behind (.nest hb hm hc hm') hc' hv'
    | false =>
      cases depth with
      | zero => rw [height_zero_cons_of_closes hb] at h; cases h
      | succ depth =>
        rw [height_succ_cons_of_closes hb] at h
        exact .behind .nil hb (ih h)

theorem balanced_iff_height {w : List Bracket} : Balanced w ↔ height 0 w = some 0 := by
  refine ⟨fun h => h.height_eq 0, fun h => ?_⟩
  cases closes_of_height h with
  | balanced h => exact h

theorem not_balanced_of_closes {u v : List Bracket} {c : Bracket} (hu : Balanced u)
    (hc : c.opens = false) : ¬ Balanced (u ++ c :: v) := by
  rw [balanced_iff_height, height_append, hu.height_eq, Option.bind_some,
    height_zero_cons_of_closes hc]
  exact nofun

theorem not_balanced_of_opens {u v : List Bracket} {o : Bracket} (hv : Balanced v)
    (ho : o.opens = true) : ¬ Balanced (u ++ o :: v) := by
  rw [balanced_iff_height, height_append, Option.bind_eq_some_iff]
  rintro ⟨depth, _, h⟩
  rw [height_cons_of_opens ho, hv.height_eq] at h
  cases h

theorem Balanced.length_le_of_closes {w w' v r : List Bracket} {c : Bracket} (hw : Balanced w)
    (hc : c.opens = false) (hw' : Balanced w') (h : w ++ c :: v = w' ++ r) :
    w'.length ≤ w.length := by
  rcases List.append_eq_append_iff.1 h with ⟨a, rfl, ha⟩ | ⟨a, rfl, _⟩
  · cases a with
    | nil => simp
    | cons b a =>
      obtain ⟨rfl, _⟩ := List.cons.inj ha
      exact absurd hw' (not_balanced_of_closes hw hc)
  · simp

theorem Balanced.length_le_of_opens {w w' x r : List Bracket} {o : Bracket} (hw : Balanced w)
    (ho : o.opens = true) (hw' : Balanced w') (h : x ++ o :: w = r ++ w') :
    w'.length ≤ w.length := by
  rcases List.append_eq_append_iff.1 h with ⟨a, rfl, ha⟩ | ⟨a, rfl, rfl⟩
  · cases a with
    | nil =>
      obtain rfl : o :: w = w' := ha
      exact absurd hw' (not_balanced_of_opens (u := []) hw ho)
    | cons b a =>
      obtain ⟨rfl, rfl⟩ := List.cons.inj ha
      simp
  · exact absurd hw' (not_balanced_of_opens hw ho)

theorem Balanced.prefix_unique {w w' v v' : List Bracket} {c c' : Bracket} (hw : Balanced w)
    (hc : c.opens = false) (hw' : Balanced w') (hc' : c'.opens = false)
    (h : w ++ c :: v = w' ++ c' :: v') : w = w' ∧ c = c' := by
  have hlen : w.length = w'.length :=
    Nat.le_antisymm (hw'.length_le_of_closes hc' hw h.symm) (hw.length_le_of_closes hc hw' h)
  obtain ⟨rfl, ht⟩ := List.append_inj h hlen
  exact ⟨rfl, (List.cons.inj ht).1⟩

theorem Balanced.suffix_unique {w w' x x' : List Bracket} {o o' : Bracket} (hw : Balanced w)
    (ho : o.opens = true) (hw' : Balanced w') (ho' : o'.opens = true)
    (h : x ++ o :: w = x' ++ o' :: w') : x = x' := by
  have hle : w'.length ≤ w.length :=
    hw.length_le_of_opens ho hw' (r := x' ++ [o']) (by simpa using h)
  have hge : w.length ≤ w'.length :=
    hw'.length_le_of_opens ho' hw (r := x ++ [o]) (by simpa using h.symm)
  exact (List.append_inj' h (by simp [Nat.le_antisymm hge hle])).1

theorem Paired.close_unique {w : List Bracket} {i j k : Nat} (h : Paired w i j)
    (h' : Paired w i k) : j = k := by
  obtain ⟨x, o, m, c, v, rfl, _, hm, hc, rfl, rfl⟩ := h
  obtain ⟨x', o', m', c', v', hw, _, hm', hc', hx, rfl⟩ := h'
  obtain ⟨rfl, ht⟩ := List.append_inj hw hx
  obtain ⟨rfl, _⟩ := hm.prefix_unique hc hm' hc' (List.cons.inj ht).2
  rfl

theorem Paired.open_unique {w : List Bracket} {i j k : Nat} (h : Paired w i k)
    (h' : Paired w j k) : i = j := by
  obtain ⟨x, o, m, c, v, rfl, ho, hm, _, rfl, rfl⟩ := h
  obtain ⟨x', o', m', c', v', hw, ho', hm', _, rfl, hk⟩ := h'
  have hw : (x ++ o :: m) ++ c :: v = (x' ++ o' :: m') ++ c' :: v' := by simpa using hw
  have hlen : (x ++ o :: m).length = (x' ++ o' :: m').length := by
    simpa [Nat.add_assoc] using hk
  rw [hm.suffix_unique ho hm' ho' (List.append_inj hw hlen).1]

theorem Paired.within {w : List Bracket} {i j : Nat} (h : Paired w i j) (a b : List Bracket) :
    Paired (a ++ w ++ b) (a.length + i) (a.length + j) := by
  obtain ⟨x, o, m, c, v, rfl, ho, hm, hc, rfl, rfl⟩ := h
  refine ⟨a ++ x, o, m, c, v ++ b, by simp, ho, hm, hc, by simp, ?_⟩
  rw [List.length_append]
  omega

theorem Paired.opens {w : List Bracket} {i j : Nat} (h : Paired w i j) :
    ∃ o ∈ w[i]?, o.opens = true := by
  obtain ⟨x, o, m, c, v, rfl, ho, _, _, rfl, _⟩ := h
  exact ⟨o, by simp, ho⟩

theorem Paired.closes {w : List Bracket} {i j : Nat} (h : Paired w i j) :
    ∃ c ∈ w[j]?, c.opens = false := by
  obtain ⟨x, o, m, c, v, rfl, _, _, hc, _, rfl⟩ := h
  have hc' : (x ++ o :: (m ++ c :: v))[x.length + m.length + 1]? = some c := by
    rw [List.getElem?_append_right (by omega)]
    have e : x.length + m.length + 1 - x.length = m.length + 1 := by omega
    simp [e]
  exact ⟨c, hc', hc⟩

theorem Balanced.exists_partner {w : List Bracket} (h : Balanced w) {k : Nat} (hk : k < w.length) :
    ∃ l, Paired w k l ∨ Paired w l k := by
  induction h generalizing k with
  | nil => cases hk
  | @nest o c w v ho hw hc hv ihw ihv =>
    have houter : Paired (o :: (w ++ c :: v)) 0 (w.length + 1) :=
      ⟨[], o, w, c, v, rfl, ho, hw, hc, rfl, by simp⟩
    have hinner : ∀ i j, Paired w i j → Paired (o :: (w ++ c :: v)) (i + 1) (j + 1) :=
      fun i j h => by simpa [Nat.add_comm] using h.within [o] (c :: v)
    have hbehind : ∀ i j, Paired v i j →
        Paired (o :: (w ++ c :: v)) (w.length + 2 + i) (w.length + 2 + j) :=
      fun i j h => by simpa using h.within (o :: (w ++ [c])) []
    cases k with
    | zero => exact ⟨w.length + 1, .inl houter⟩
    | succ k =>
      rcases Nat.lt_trichotomy k w.length with hlt | rfl | hgt
      · obtain ⟨l, hl⟩ := ihw hlt
        exact ⟨l + 1, hl.imp (hinner k l) (hinner l k)⟩
      · exact ⟨0, .inr houter⟩
      · obtain ⟨n, rfl⟩ := Nat.exists_eq_add_of_lt hgt
        have hn : n < v.length := by simp at hk; omega
        obtain ⟨l, hl⟩ := ihv hn
        have e : w.length + n + 1 + 1 = w.length + 2 + n := by omega
        exact ⟨w.length + 2 + l, e ▸ hl.imp (hbehind n l) (hbehind l n)⟩

theorem Balanced.existsUnique_open {w : List Bracket} (h : Balanced w) {j : Nat} {c : Bracket}
    (hj : w[j]? = some c) (hc : c.opens = false) : ∃! i, Paired w i j := by
  obtain ⟨i, hi | hi⟩ := h.exists_partner (List.getElem?_eq_some_iff.1 hj).1
  · obtain ⟨o, ho, hopens⟩ := hi.opens
    obtain rfl := Option.some.inj (hj.symm.trans ho)
    rw [hc] at hopens
    cases hopens
  · exact ⟨i, hi, fun k hk => hk.open_unique hi⟩

theorem Balanced.existsUnique_close {w : List Bracket} (h : Balanced w) {i : Nat} {o : Bracket}
    (hi : w[i]? = some o) (ho : o.opens = true) : ∃! j, Paired w i j := by
  obtain ⟨j, hj | hj⟩ := h.exists_partner (List.getElem?_eq_some_iff.1 hi).1
  · exact ⟨j, hj, fun k hk => hk.close_unique hj⟩
  · obtain ⟨c, hc, hcloses⟩ := hj.closes
    obtain rfl := Option.some.inj (hi.symm.trans hc)
    rw [ho] at hcloses
    cases hcloses

end Bracket

namespace Lexeme

/-- The tag that a lexeme is, where it stands behind `start` characters. One that closes itself does
not count. -/
def bracket? (start : Nat) : Lexeme → Option Bracket
  | .plain _ | .comment _ => none
  | .opening inside =>
    if isSelfClosing inside then none
    else some ⟨true, start, start + (opening inside).source.length⟩
  | .closing gap => some ⟨false, start, start + (closing gap).source.length⟩

def brackets : Nat → List Lexeme → List Bracket
  | _, [] => []
  | start, l :: ls => (l.bracket? start).toList ++ brackets (start + l.source.length) ls

theorem brackets_append (start : Nat) (ls ms : List Lexeme) :
    brackets start (ls ++ ms) = brackets start ls ++ brackets (start + (sources ls).length) ms := by
  induction ls generalizing start with
  | nil => rfl
  | cons l ls ih =>
    simp only [List.cons_append, brackets, ih, sources_cons, List.length_append, List.append_assoc,
      Nat.add_assoc]

theorem depthAfter_eq_height (depth start : Nat) (ls : List Lexeme) :
    depthAfter depth ls = Bracket.height depth (brackets start ls) := by
  induction ls generalizing depth start with
  | nil => simp [depthAfter, brackets, Bracket.height]
  | cons l ls ih =>
    cases l with
    | plain | comment => simpa [depthAfter, brackets, bracket?] using ih depth _
    | opening inside =>
      cases hs : isSelfClosing inside <;>
        simpa [depthAfter, brackets, bracket?, hs, Bracket.height] using ih _ _
    | closing gap =>
      cases depth with
      | zero => rfl
      | succ depth => exact ih depth _

theorem exists_of_brackets_eq {start : Nat} {ls : List Lexeme} {w v : List Bracket} {b : Bracket}
    (h : brackets start ls = w ++ b :: v) :
    ∃ ms l rs, ls = ms ++ l :: rs ∧ brackets start ms = w ∧
      l.bracket? (start + (sources ms).length) = some b := by
  induction ls generalizing start w with
  | nil => simp [brackets] at h
  | cons l ls ih =>
    have hcases : (l.bracket? start = some b ∧ w = []) ∨ ∃ w', w = (l.bracket? start).toList ++ w' ∧
        brackets (start + l.source.length) ls = w' ++ b :: v := by
      rw [brackets] at h
      cases hb : l.bracket? start with
      | none => exact .inr ⟨w, rfl, by simpa [hb] using h⟩
      | some b' =>
        rw [hb] at h
        cases w with
        | nil => exact .inl ⟨congrArg some (List.cons.inj h).1, rfl⟩
        | cons b'' w =>
          obtain ⟨rfl, ht⟩ := List.cons.inj h
          exact .inr ⟨w, rfl, ht⟩
    rcases hcases with ⟨hb, rfl⟩ | ⟨w, rfl, ht⟩
    · exact ⟨[], l, ls, rfl, rfl, hb⟩
    · obtain ⟨ms, l', rs, rfl, rfl, hb⟩ := ih ht
      refine ⟨l :: ms, l', rs, rfl, rfl, ?_⟩
      rwa [sources_cons, List.length_append, ← Nat.add_assoc]

theorem bracket?_eq_close_iff {start first past : Nat} {l : Lexeme} :
    l.bracket? start = some ⟨false, first, past⟩ ↔ ∃ gap, l = .closing gap ∧ first = start ∧
      past = start + (CloseTag.source kind gap).length := by
  cases l with
  | plain | comment => simp [bracket?]
  | opening inside => cases hs : isSelfClosing inside <;> simp [bracket?, hs]
  | closing gap => simp [bracket?, source, eq_comm]

end Lexeme

/-- A close tag that ends a block: what stands in front of it among the tags is balanced. -/
structure Bracket.Ends (tags w : List Bracket) (c : Bracket) : Prop where
  balanced : Balanced w
  closes : c.opens = false
  begins : w ++ [c] <+: tags

theorem Bracket.Ends.unique {tags w w' : List Bracket} {c c' : Bracket} (h : Ends tags w c)
    (h' : Ends tags w' c') : w = w' ∧ c = c' := by
  obtain ⟨v, hv⟩ := h.begins
  obtain ⟨v', hv'⟩ := h'.begins
  have e : w ++ c :: v = w' ++ c' :: v' := by simpa using hv.trans hv'.symm
  exact h.balanced.prefix_unique h.closes h'.balanced h'.closes e

namespace Piece

/-- Where the content that begins at `start` ends, and where the close tag behind it ends. The block of
that content begins at `opened`. -/
def closeAt (kind source : Text) (start opened : Nat) : Except MarkupError (Nat × Nat) :=
  match blockEnd? kind (source.drop start) with
  | none => .error (.ofFault source ⟨.unclosed kind, opened⟩)
  | some (content, gap, _) =>
    .ok (start + content.length, start + content.length + (CloseTag.source kind gap).length)

variable {kind source : Text} {start opened e r : Nat}

theorem closeAt_eq_ok_iff : closeAt kind source start opened = .ok (e, r) ↔
    ∃ content gap rest, blockEnd? kind (source.drop start) = some (content, gap, rest) ∧
      e = start + content.length ∧ r = e + (CloseTag.source kind gap).length := by
  constructor
  · intro h
    unfold closeAt at h
    split at h
    · cases h
    · next hb => cases h; exact ⟨_, _, _, hb, rfl, rfl⟩
  · rintro ⟨content, gap, rest, hb, rfl, rfl⟩
    rw [closeAt, hb]

theorem closeAt_eq_error {err : MarkupError} (h : closeAt kind source start opened = .error err) :
    blockEnd? kind (source.drop start) = none ∧
      err = .ofFault source ⟨.unclosed kind, opened⟩ := by
  unfold closeAt at h
  split at h
  · next hb => cases h; exact ⟨hb, rfl⟩
  · cases h

theorem blockEnd?_of_closeAt (h : closeAt kind source start opened = .ok (e, r)) :
    ∃ gap, (source.drop e).take (r - e) = CloseTag.source kind gap ∧
      blockEnd? kind (source.drop start) =
        some ((source.drop start).take (e - start), gap, source.drop r) := by
  obtain ⟨content, gap, rest, hb, rfl, rfl⟩ := closeAt_eq_ok_iff.1 h
  have hsource := blockEnd?_sound hb
  have hcontent : (source.drop start).take (start + content.length - start) = content := by
    rw [hsource]
    simp
  have htail : source.drop (start + content.length) = CloseTag.source kind gap ++ rest := by
    rw [← List.drop_drop, hsource]
    simp
  have hrest : source.drop (start + content.length + (CloseTag.source kind gap).length) = rest := by
    rw [← List.drop_drop, htail]
    simp
  refine ⟨gap, ?_, ?_⟩
  · rw [htail]
    simp
  · rw [hb, hcontent, hrest]

theorem parse_of_closeAt {tag : StartTag} {attrs : Attrs} {err : MarkupError}
    (hreach : Component.Reaches source opened)
    (ht : StartTag.read? (source.drop opened) = some (tag, source.drop start))
    (ha : AttributeList.read? tag.raw = some attrs) (hs : tag.selfClosing = false)
    (h : closeAt tag.name source start opened = .error err) (deindent : Bool) :
    Component.parse source deindent = .error err := by
  obtain ⟨hb, rfl⟩ := closeAt_eq_error h
  obtain ⟨t, hsource, hn⟩ := next_of_read? ht
  refine Component.parse_of_reaches hreach hsource ?_ deindent
  rw [hn, ofTag, ha, hb]
  simp [hs]

theorem closeAt_template_iff :
    closeAt Lexeme.kind source start opened = .ok (e, r) ↔ ∃ w,
      Bracket.Ends (Lexeme.brackets start (Lexeme.ofText (source.drop start))) w ⟨false, e, r⟩ := by
  rw [closeAt_eq_ok_iff]
  simp only [blockEnd?, if_true, templateEnd?]
  constructor
  · rintro ⟨content, gap, rest, hb, rfl, rfl⟩
    obtain ⟨⟨ms, g, rs⟩, hu, he⟩ := Option.map_eq_some_iff.1 hb
    cases he
    obtain ⟨hl, hd⟩ := Lexeme.untilBalanced_eq_some_iff.1 hu
    refine ⟨Lexeme.brackets start ms, ?_, rfl, ?_⟩
    · rwa [Bracket.balanced_iff_height, ← Lexeme.depthAfter_eq_height]
    · rw [hl, Lexeme.brackets_append, List.prefix_append_right_inj]
      exact ⟨_, rfl⟩
  · rintro ⟨w, hw, _, v, hv⟩
    rw [List.append_assoc] at hv
    obtain ⟨ms, l, rs, hl, rfl, hc⟩ := Lexeme.exists_of_brackets_eq hv.symm
    obtain ⟨gap, rfl, rfl, rfl⟩ := Lexeme.bracket?_eq_close_iff.1 hc
    rw [Bracket.balanced_iff_height, ← Lexeme.depthAfter_eq_height] at hw
    refine ⟨Lexeme.sources ms, gap, Lexeme.sources rs, ?_, rfl, rfl⟩
    rw [Lexeme.untilBalanced_eq_some_iff.2 ⟨hl, hw⟩, Option.map_some]

/-- The close tag of a template is the one in front of which the tags of the template are a balanced
word. -/
theorem closeAt_template_balanced (source : Text) (start opened : Nat) :
    let tags := Lexeme.brackets start (Lexeme.ofText (source.drop start))
    let place := Position.ofOffset source opened
    let unclosed : MarkupError :=
      ⟨"Unclosed <template> block", some place.line, some place.column⟩
    (∀ e r, closeAt Lexeme.kind source start opened = .ok (e, r) ↔
      ∃ w, Bracket.Ends tags w ⟨false, e, r⟩) ∧
    (∀ w w' c c', Bracket.Ends tags w c → Bracket.Ends tags w' c' → w = w' ∧ c = c') ∧
    ((¬ ∃ w c, Bracket.Ends tags w c) →
      closeAt Lexeme.kind source start opened = .error unclosed ∧
      ∀ tag attrs, Component.Reaches source opened →
        StartTag.read? (source.drop opened) = some (tag, source.drop start) →
        tag.name = Lexeme.kind → tag.selfClosing = false →
        AttributeList.read? tag.raw = some attrs →
        ∀ deindent, Component.parse source deindent = .error unclosed) ∧
    (∀ e r, closeAt Lexeme.kind source start opened = .ok (e, r) → ∃ gap, CloseTag.IsGap gap ∧
      (source.drop e).take (r - e) = CloseTag.source Lexeme.kind gap ∧
      blockEnd? Lexeme.kind (source.drop start) =
        some ((source.drop start).take (e - start), gap, source.drop r)) ∧
    (∀ w, Bracket.Balanced w →
      (∀ j c, w[j]? = some c → c.opens = false → ∃! i, Bracket.Paired w i j) ∧
      (∀ i o, w[i]? = some o → o.opens = true → ∃! j, Bracket.Paired w i j) ∧
      ∀ u c v, w = u ++ c :: v → c.opens = false → ¬ Bracket.Balanced u) := by
  intro tags place unclosed
  refine ⟨fun e r => closeAt_template_iff, fun w w' c c' h h' => h.unique h', fun hnone => ?_,
    fun e r h => ?_, fun w hw => ⟨fun j c => hw.existsUnique_open, fun i o => hw.existsUnique_close,
      ?_⟩⟩
  · have herr : closeAt Lexeme.kind source start opened = .error unclosed := by
      cases h : closeAt Lexeme.kind source start opened with
      | ok span =>
        obtain ⟨w, hw⟩ := closeAt_template_iff.1 h
        exact absurd ⟨w, _, hw⟩ hnone
      | error err => rw [(closeAt_eq_error h).2]; rfl
    refine ⟨herr, fun tag attrs hreach ht hname hs ha deindent => ?_⟩
    rw [← hname] at herr
    exact parse_of_closeAt hreach ht ha hs herr deindent
  · obtain ⟨gap, hclose, hb⟩ := blockEnd?_of_closeAt h
    obtain ⟨_, hg, _⟩ := templateEnd?_eq_some_iff.1 hb
    exact ⟨gap, hg, hclose, hb⟩
  · rintro u c v rfl hc hu
    exact Bracket.not_balanced_of_closes hu hc hw

/-- A tag that closes itself, a close tag in a comment and one between quotes count for nothing. -/
theorem closeAt_template_balanced_nested :
    let source : Text := "<template><template a='>'/><!--</template>-->" ++
      "<template b=\"</template>\">*</template></template >"
    let tags : List Bracket := [⟨true, 45, 71⟩, ⟨false, 72, 83⟩, ⟨false, 83, 95⟩]
    Lexeme.brackets 10 (Lexeme.ofText (source.drop 10)) = tags ∧
      closeAt Lexeme.kind source 10 0 = .ok (83, 95) := by
  intro source tags
  have htags : Lexeme.brackets 10 (Lexeme.ofText (source.drop 10)) = tags := by decide +kernel
  have hends : Bracket.Ends tags [⟨true, 45, 71⟩, ⟨false, 72, 83⟩] ⟨false, 83, 95⟩ :=
    ⟨.nest rfl .nil rfl .nil, rfl, List.prefix_rfl⟩
  obtain ⟨hclose, _⟩ := closeAt_template_balanced source 10 0
  rw [htags] at hclose
  exact ⟨htags, (hclose 83 95).2 ⟨_, hends⟩⟩

end Piece

end SfcTheme

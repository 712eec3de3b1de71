import Mathlib.Data.List.Forall2
import SfcTheme.Proofs.Reserialization

set_option autoImplicit false

namespace SfcTheme

namespace Text

theorem isPrefix_common {m s t : Text} (hs : m <+: s) (ht : m <+: t) : m <+: common s t := by
  obtain ⟨a, rfl⟩ := hs
  obtain ⟨b, rfl⟩ := ht
  rw [common_append]
  exact List.prefix_append m _

theorem isPrefix_foldl_common {m i : Text} {is : List Text} (h : ∀ j ∈ i :: is, m <+: j) :
    m <+: is.foldl common i := by
  induction is generalizing i with
  | nil => exact h i List.mem_cons_self
  | cons k is ih =>
    obtain ⟨hi, hk, his⟩ := by simpa only [List.forall_mem_cons] using h
    exact ih (List.forall_mem_cons.2 ⟨isPrefix_common hi hk, his⟩)

/-- An indentation that every line with text in it begins with. -/
structure SharedIndent (ls : List Text) (m : Text) : Prop where
  indent : ∀ c ∈ m, isIndent c = true
  shared : ∀ l ∈ ls, isEmptyLine l = false → m <+: l

theorem SharedIndent.isPrefix_indentation {ls : List Text} {l m : Text} (h : SharedIndent ls m)
    (hl : l ∈ ls) (ht : isEmptyLine l = false) : m <+: indentation l := by
  obtain ⟨r, hr⟩ := h.shared l hl ht
  rw [← hr, indentation, List.takeWhile_append_of_pos h.indent]
  exact List.prefix_append m _

/-- The longest shared indentation. Without any text every indentation is shared, and none counts. -/
structure IsMargin (ls : List Text) (m : Text) : Prop extends SharedIndent ls m where
  longest : ∀ l ∈ ls, isEmptyLine l = false → ∀ n, SharedIndent ls n → n <+: m

theorem mem_indentations {ls : List Text} {i : Text} :
    i ∈ indentations ls ↔ ∃ l ∈ ls, isEmptyLine l = false ∧ indentation l = i := by
  simp [indentations, and_assoc]

theorem isMargin_margin (ls : List Text) : IsMargin ls (margin ls) where
  indent := by
    intro c hc
    cases hi : indentations ls with
    | nil =>
      rw [margin_of_nil hi] at hc
      cases hc
    | cons i is =>
      obtain ⟨l, hl, ht, _⟩ := mem_indentations.1 (hi ▸ List.mem_cons_self : i ∈ indentations ls)
      exact (margin_append_drop hl ht).2 c hc
  shared l hl ht := ⟨_, (margin_append_drop hl ht).1.symm⟩
  longest l hl ht n hn := by
    have hm : indentation l ∈ indentations ls := mem_indentations.2 ⟨l, hl, ht, rfl⟩
    cases hi : indentations ls with
    | nil =>
      rw [hi] at hm
      cases hm
    | cons i is =>
      rw [margin_of_cons hi]
      refine isPrefix_foldl_common fun j hj => ?_
      obtain ⟨k, hk, htk, rfl⟩ := mem_indentations.1 (hi ▸ hj)
      exact hn.isPrefix_indentation hk htk

def TakenOff (m raw l : Text) : Prop := if isEmptyLine raw then l = [] else raw = m ++ l

/-- `t` has the lines of `s` without their margin, and no margin of its own. -/
structure WithoutMargin (s t : Text) : Prop where
  newlines : newlines t = newlines s
  lines : ∃ m, IsMargin (lines s) m ∧ List.Forall₂ (TakenOff m) (lines s) (lines t)
  again : t.deindented = t

theorem takenOff_deindentedLine {ls : List Text} {l : Text} (hl : l ∈ ls) :
    TakenOff (margin ls) l (deindentedLine (margin ls) l) := by
  unfold TakenOff deindentedLine
  split
  · rfl
  · next h => exact (margin_append_drop hl (by simpa using h)).1

theorem withoutMargin_deindented (s : Text) : WithoutMargin s s.deindented where
  newlines := by
    have h : (Text.lines s.deindented).length = (Text.lines s).length := by
      rw [lines_deindented, List.length_map]
    simpa [length_lines] using h
  lines := by
    refine ⟨margin (Text.lines s), isMargin_margin _, ?_⟩
    rw [lines_deindented, List.forall₂_map_right_iff, List.forall₂_same]
    exact fun l hl => takenOff_deindentedLine hl
  again := deindented_deindented s

theorem IsMargin.unique {ls : List Text} {l m n : Text} (hm : IsMargin ls m) (hn : IsMargin ls n)
    (hl : l ∈ ls) (ht : isEmptyLine l = false) : m = n :=
  have hmn : m <+: n := hn.longest l hl ht m hm.toSharedIndent
  have hnm : n <+: m := hm.longest l hl ht n hn.toSharedIndent
  hmn.eq_of_length (Nat.le_antisymm hmn.length_le hnm.length_le)

theorem eq_deindentedLine_of_takenOff {ls : List Text} {raw l m : Text} (hm : IsMargin ls m)
    (hr : raw ∈ ls) (h : TakenOff m raw l) : l = deindentedLine (margin ls) raw := by
  unfold TakenOff at h
  cases ht : isEmptyLine raw with
  | true =>
    rw [if_pos ht] at h
    rw [h, deindentedLine, if_pos ht]
  | false =>
    have he : ¬isEmptyLine raw = true := by simp [ht]
    rw [if_neg he] at h
    rw [deindentedLine, if_neg he, ← hm.unique (isMargin_margin ls) hr ht, h, List.drop_left]

theorem eq_map_of_forall₂ {R : Text → Text → Prop} {f : Text → Text} {ls ks : List Text}
    (h : List.Forall₂ R ls ks) (hf : ∀ l ∈ ls, ∀ k, R l k → k = f l) : ks = ls.map f := by
  induction h with
  | nil => rfl
  | cons hd _ ih =>
    rw [List.forall_mem_cons] at hf
    rw [List.map_cons, ← hf.1 _ hd, ← ih hf.2]

theorem withoutMargin_iff {s t : Text} : WithoutMargin s t ↔ t = s.deindented := by
  constructor
  · intro h
    obtain ⟨m, hm, hlines⟩ := h.lines
    have ht : Text.lines t = (Text.lines s).map (deindentedLine (margin (Text.lines s))) :=
      eq_map_of_forall₂ hlines fun raw hr l hl => eq_deindentedLine_of_takenOff hm hr hl
    rw [← unlines_lines t, ht, deindented]
  · rintro rfl
    exact withoutMargin_deindented s

end Text

theorem Block.isCustom_deindented (b : Block) : b.deindented.isCustom = b.isCustom := by
  rw [isCustom, kind_deindented, isCustom]

namespace Style

def deindented (s : Style) : Style := { s with content := s.content.deindented }

theorem style?_deindented (b : Block) : b.deindented.style? = b.style?.map deindented := by
  by_cases h : b.kind = kind
  · have ht : b.kind ≠ Lexeme.kind := by rw [h]; decide
    simp [Block.style?, Block.deindented_of_not_template ht, h, deindented]
  · simp [Block.style?, h]

end Style

namespace Component

def deindented (c : Component) : Component where
  template := c.template
  script := c.script.map Block.deindented
  styles := c.styles.map Style.deindented
  customBlocks := c.customBlocks.map Block.deindented

theorem find?_map_deindented (kind : Text) (bs : List Block) :
    (bs.map Block.deindented).find? (fun b => b.kind == kind) =
      (bs.find? fun b => b.kind == kind).map Block.deindented := by
  simp only [List.find?_map, Function.comp_def, Block.kind_deindented]

theorem ofBlocks_map_deindented (bs : List Block) :
    ofBlocks (bs.map Block.deindented) = (ofBlocks bs).deindented := by
  have ht : (ofBlocks bs).template.map Block.deindented = (ofBlocks bs).template := by
    cases h : (ofBlocks bs).template with
    | none => rfl
    | some b =>
      have hb : b.deindented = b :=
        Block.deindented_of_template ((inPlace_ofBlocks bs).template b h)
      rw [Option.map_some, hb]
  have hs : (bs.map Block.deindented).filterMap Block.style? =
      (bs.filterMap Block.style?).map Style.deindented := by
    simp only [List.filterMap_map, List.map_filterMap, Function.comp_def, Style.style?_deindented]
  have hc : (bs.map Block.deindented).filter Block.isCustom =
      (bs.filter Block.isCustom).map Block.deindented := by
    simp only [List.filter_map, Function.comp_def, Block.isCustom_deindented]
  rw [deindented, ← ht]
  simp only [ofBlocks, find?_map_deindented, hs, hc]

theorem read_true (source : Text) :
    read source true = (read source false).map deindented := by
  cases h : Piece.ofText source with
  | error f => simp [read, h, Except.map]
  | ok ps => simp [read, h, Except.map, ofPieces, ofBlocks_map_deindented]

theorem parse_true (source : Text) :
    parse source true = (parse source false).map deindented := by
  rw [parse, parse, read_true]
  cases read source false <;> rfl

end Component

structure Block.WithoutMargin (raw b : Block) : Prop where
  kind : b.kind = raw.kind
  attrs : b.attrs = raw.attrs
  content : raw.content.WithoutMargin b.content

theorem Block.withoutMargin_deindented {b : Block} (h : b.kind ≠ Lexeme.kind) :
    b.WithoutMargin b.deindented where
  kind := b.kind_deindented
  attrs := b.attrs_deindented
  content := by
    rw [deindented_of_not_template h]
    exact Text.withoutMargin_deindented b.content

namespace Component

structure WithoutMargins (raw c : Component) : Prop where
  template : c.template = raw.template
  script : Option.Rel Block.WithoutMargin raw.script c.script
  styles : List.Forall₂ (fun s t => s.toBlock.WithoutMargin t.toBlock) raw.styles c.styles
  customBlocks : List.Forall₂ Block.WithoutMargin raw.customBlocks c.customBlocks

theorem InPlace.withoutMargins_deindented {c : Component} (h : c.InPlace) :
    c.WithoutMargins c.deindented where
  template := rfl
  script := by
    cases hs : c.script with
    | none => rw [deindented, hs]; exact .none
    | some b =>
      have hk : b.kind ≠ Lexeme.kind := by rw [h.script b hs]; decide
      rw [deindented, hs]
      exact .some (Block.withoutMargin_deindented hk)
  styles := by
    rw [deindented, List.forall₂_map_right_iff, List.forall₂_same]
    exact fun s _ => ⟨rfl, rfl, Text.withoutMargin_deindented s.content⟩
  customBlocks := by
    rw [deindented, List.forall₂_map_right_iff, List.forall₂_same]
    exact fun b hb => Block.withoutMargin_deindented (kind_ne_of_isCustom (h.customBlocks b hb)).2.1

/-- Taking margins off moves no fault and touches nothing but the indentation of contents. -/
theorem parse_withoutMargins (source : Text) :
    (∃ e, parse source true = .error e ∧ parse source false = .error e) ∨
      ∃ raw c, parse source false = .ok raw ∧ parse source true = .ok c ∧ raw.WithoutMargins c := by
  cases h : parse source false with
  | error e => exact .inl ⟨e, by rw [parse_true, h]; rfl, rfl⟩
  | ok raw =>
    refine .inr ⟨raw, raw.deindented, rfl, by rw [parse_true, h]; rfl, ?_⟩
    exact (inPlace_of_parse h).withoutMargins_deindented

end Component

end SfcTheme

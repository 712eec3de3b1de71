import SfcTheme.Proofs.Deindentation

/-!
A component that was read is written in another order and read again. Nothing but the template can
be read differently there: its scan looks for the ends of comments and tags behind it, where other
blocks stand now.
-/

set_option autoImplicit false

namespace SfcTheme

theorem enclosed_nil (kind : Text) : Enclosed kind [] := by
  unfold Enclosed
  split
  · simp [Lexeme.ofText, Lexeme.depthAfter]
  · intro hw
    obtain ⟨gap, _, u, v, h⟩ := hw
    simp [CloseTag.source] at h

namespace Piece

theorem Fits.sound {p : Piece} {r : Text} {b : Block} (h : p.Fits r) (hb : p.block? = some b) :
    b.Sound := by
  cases h with
  | text | stray | comment => cases hb
  | selfClosing ht _ ha => cases hb; exact ⟨ht.name, Attrs.sound_of_read? ha, enclosed_nil _⟩
  | block ht _ ha _ hc _ => cases hb; exact ⟨ht.name, Attrs.sound_of_read? ha, hc⟩

theorem Segmented.forall_blocks {P : Block → Prop}
    (hP : ∀ {p : Piece} {r : Text} {b : Block}, p.Fits r → p.block? = some b → P b)
    {ps : List Piece} (h : Segmented ps) : ∀ b ∈ blocks ps, P b := by
  induction h with
  | nil => simp [blocks]
  | cons hp _ ih =>
    intro b hb
    obtain ⟨p, hm, hp'⟩ := List.mem_filterMap.1 hb
    rcases List.mem_cons.1 hm with rfl | hm
    · exact hP hp hp'
    · exact ih b (List.mem_filterMap.2 ⟨p, hm, hp'⟩)

end Piece

namespace Component

/-- The blocks in the order in which they are written. -/
def blocks (c : Component) : List Block :=
  c.customBlocks ++ (c.template.toList ++ (c.script.toList ++ c.styles.map Style.toBlock))

structure InPlace (c : Component) : Prop where
  template : ∀ b ∈ c.template, b.kind = "template"
  script : ∀ b ∈ c.script, b.kind = "script"
  customBlocks : ∀ b ∈ c.customBlocks, b.isCustom = true

theorem kind_ne_of_isCustom {b : Block} (h : b.isCustom = true) :
    b.kind ≠ Style.kind ∧ b.kind ≠ "template" ∧ b.kind ≠ "script" := by
  simpa [Block.isCustom, Piece.singletons] using h

theorem kind_of_mem_styles {ss : List Style} {b : Block} (h : b ∈ ss.map Style.toBlock) :
    b.kind = Style.kind := by
  obtain ⟨s, _, rfl⟩ := List.mem_map.1 h
  rfl

theorem inPlace_ofBlocks (bs : List Block) : (ofBlocks bs).InPlace where
  template b hb := by simpa using List.find?_some hb
  script b hb := by simpa using List.find?_some hb
  customBlocks b hb := (List.mem_filter.1 hb).2

theorem mem_of_mem_blocks_ofBlocks {bs : List Block} {b : Block} (h : b ∈ (ofBlocks bs).blocks) :
    b ∈ bs := by
  simp only [blocks, ofBlocks, List.mem_append, List.mem_filter, Option.mem_toList,
    List.mem_map, List.mem_filterMap] at h
  rcases h with ⟨h, _⟩ | h | h | ⟨s, ⟨d, hd, hs⟩, rfl⟩
  · exact h
  · exact List.mem_of_find?_eq_some h
  · exact List.mem_of_find?_eq_some h
  · unfold Block.style? at hs
    split at hs
    · next hk =>
      cases hs
      rwa [Style.toBlock, ← hk]
    · cases hs

theorem find?_slot {kind : Text} {slot : Option Block} {before behind : List Block}
    (hs : ∀ b ∈ slot, b.kind = kind) (hb : ∀ b ∈ before, b.kind ≠ kind)
    (ha : ∀ b ∈ behind, b.kind ≠ kind) :
    (before ++ (slot.toList ++ behind)).find? (fun b => b.kind == kind) = slot := by
  have hbefore : before.find? (fun b => b.kind == kind) = none :=
    List.find?_eq_none.2 fun b hm => by simpa using hb b hm
  have hbehind : behind.find? (fun b => b.kind == kind) = none :=
    List.find?_eq_none.2 fun b hm => by simpa using ha b hm
  rw [List.find?_append, hbefore, Option.none_or, List.find?_append, hbehind, Option.or_none]
  cases slot with
  | none => rfl
  | some b => simp [hs b rfl]

theorem filterMap_style?_toBlock (ss : List Style) :
    (ss.map Style.toBlock).filterMap Block.style? = ss := by
  rw [List.filterMap_map]
  exact List.filterMap_some

theorem filterMap_style?_eq_nil {bs : List Block} (h : ∀ b ∈ bs, b.kind ≠ Style.kind) :
    bs.filterMap Block.style? = [] :=
  List.filterMap_eq_nil_iff.2 fun b hb => if_neg (h b hb)

section

variable {c : Component} (h : c.InPlace)

include h

theorem InPlace.find?_template :
    c.blocks.find? (fun b : Block => b.kind == "template") = c.template := by
  refine find?_slot h.template (fun b hb => ?_) fun b hb => ?_
  · exact (kind_ne_of_isCustom (h.customBlocks b hb)).2.1
  · rcases List.mem_append.1 hb with hb | hb
    · rw [h.script b (Option.mem_toList.1 hb)]
      decide
    · rw [kind_of_mem_styles hb]
      decide

theorem InPlace.find?_script :
    c.blocks.find? (fun b : Block => b.kind == "script") = c.script := by
  rw [blocks, ← List.append_assoc]
  refine find?_slot h.script (fun b hb => ?_) fun b hb => ?_
  · rcases List.mem_append.1 hb with hb | hb
    · exact (kind_ne_of_isCustom (h.customBlocks b hb)).2.2
    · rw [h.template b (Option.mem_toList.1 hb)]
      decide
  · rw [kind_of_mem_styles hb]
    decide

theorem InPlace.filterMap_style? : c.blocks.filterMap Block.style? = c.styles := by
  have hc := filterMap_style?_eq_nil fun b hb => (kind_ne_of_isCustom (h.customBlocks b hb)).1
  have ht : c.template.toList.filterMap Block.style? = [] := filterMap_style?_eq_nil fun b hb => by
    rw [h.template b (Option.mem_toList.1 hb)]
    decide
  have hs : c.script.toList.filterMap Block.style? = [] := filterMap_style?_eq_nil fun b hb => by
    rw [h.script b (Option.mem_toList.1 hb)]
    decide
  simp only [blocks, List.filterMap_append, hc, ht, hs, List.nil_append, filterMap_style?_toBlock]

theorem InPlace.filter_isCustom : c.blocks.filter Block.isCustom = c.customBlocks := by
  rw [blocks, List.filter_append, List.filter_eq_self.2 h.customBlocks,
    List.filter_eq_nil_iff.2 ?_, List.append_nil]
  intro b hb hi
  obtain ⟨hstyle, htemplate, hscript⟩ := kind_ne_of_isCustom hi
  rcases List.mem_append.1 hb with hb | hb
  · exact htemplate (h.template b (Option.mem_toList.1 hb))
  · rcases List.mem_append.1 hb with hb | hb
    · exact hscript (h.script b (Option.mem_toList.1 hb))
    · exact hstyle (kind_of_mem_styles hb)

theorem InPlace.ofBlocks_blocks : ofBlocks c.blocks = c := by
  simp only [ofBlocks, h.find?_template, h.find?_script, h.filterMap_style?, h.filter_isCustom]

end

/-- A component as it comes out of reading: each block in its place, with a tag and a content that
are read back, and with no margin left to take off. -/
structure Normal (c : Component) : Prop where
  inPlace : c.InPlace
  sound : ∀ b ∈ c.blocks, b.Sound
  deindented : ∀ b ∈ c.blocks, b.deindented = b

theorem forall_blocks_of_parse {P : Block → Prop}
    (hP : ∀ {p : Piece} {r : Text} {b : Block}, p.Fits r → p.block? = some b → P b)
    (hd : ∀ {b : Block}, P b → P b.deindented) {s : Text} {deindent : Bool} {c : Component}
    (h : parse s deindent = .ok c) : ∀ b ∈ c.blocks, P b := by
  obtain ⟨ps, hc, rfl⟩ := parse_eq_ok_iff.1 h
  have hps : ∀ b ∈ Piece.blocks ps, P b := hc.segmented.2.forall_blocks hP
  intro b hb
  have hb := mem_of_mem_blocks_ofBlocks hb
  cases deindent with
  | false => exact hps b hb
  | true =>
    obtain ⟨d, hm, rfl⟩ := List.mem_map.1 hb
    exact hd (hps d hm)

theorem inPlace_of_parse {s : Text} {deindent : Bool} {c : Component}
    (h : parse s deindent = .ok c) : c.InPlace := by
  obtain ⟨ps, _, rfl⟩ := parse_eq_ok_iff.1 h
  exact inPlace_ofBlocks _

theorem normal_of_parse {s : Text} {c : Component} (h : parse s true = .ok c) : c.Normal where
  inPlace := inPlace_of_parse h
  sound := forall_blocks_of_parse Piece.Fits.sound Block.Sound.deindented h
  deindented b hb := by
    obtain ⟨ps, _, rfl⟩ := parse_eq_ok_iff.1 h
    obtain ⟨d, _, rfl⟩ := List.mem_map.1 (mem_of_mem_blocks_ofBlocks hb)
    exact d.deindented_deindented

theorem Normal.map_deindented {c : Component} (h : c.Normal) :
    c.blocks.map Block.deindented = c.blocks := by
  rw [List.map_congr_left h.deindented, List.map_id']

end Component

namespace Block

theorem singleton?_eq_none {b : Block} (h : b.kind ≠ "template" ∧ b.kind ≠ "script") :
    b.singleton? = none := by
  simpa [singleton?, Option.filter, Piece.singletons] using h

theorem singleton?_eq_some {b : Block} (h : b.kind ∈ Piece.singletons) :
    b.singleton? = some b.kind := by
  simpa [singleton?, Option.filter] using h

end Block

namespace Component

open Piece

theorem yields_repeatable_iff {taken : List Text} {b : Block} {gap r : Text} {bs : List Block}
    (hs : b.Sound) (hq : b.attrs.Quotable) (hk : b.kind ≠ "template" ∧ b.kind ≠ "script")
    (hg : '<' ∉ gap) :
    Yields taken (b.source ++ (gap ++ r)) bs ↔ ∃ bs', bs = b :: bs' ∧ Yields taken r bs' := by
  have hu : b.Undisturbed (gap ++ r) := fun h => absurd h hk.1
  rw [yields_undisturbed_iff hs hq hu, Block.singleton?_eq_none hk]
  simp [yields_text_iff hg]

theorem yields_customSource_iff {taken : List Text} {cs bs : List Block} {r : Text}
    (h : ∀ b ∈ cs, b.Sound ∧ b.attrs.Quotable ∧ b.isCustom = true) :
    Yields taken (customSource cs ++ r) bs ↔ ∃ bs', bs = cs ++ bs' ∧ Yields taken r bs' := by
  induction cs generalizing bs with
  | nil => simp [customSource]
  | cons b cs ih =>
    obtain ⟨⟨hs, hq, hc⟩, hcs⟩ := List.forall_mem_cons.1 h
    have e : customSource (b :: cs) ++ r =
        b.source ++ (['\n', '\n'] ++ (customSource cs ++ r)) := by
      simp [customSource, Block.sectionText]
    rw [e, yields_repeatable_iff hs hq (kind_ne_of_isCustom hc).2 (by simp)]
    simp only [ih hcs]
    constructor
    · intro ⟨_, hb, bs', hb', hy⟩
      exact ⟨bs', by rw [hb, hb']; rfl, hy⟩
    · intro ⟨bs', hb, hy⟩
      exact ⟨cs ++ bs', hb, bs', rfl, hy⟩

theorem styleSource_cons {s : Style} {ss : List Style} (h : ss ≠ []) :
    styleSource (s :: ss) = s.toBlock.sectionText ++ (['\n'] ++ styleSource ss) := by
  rw [styleSource, List.map_cons, List.intercalate_cons_of_ne_nil (by simpa using h),
    List.append_assoc]
  rfl

theorem styleSource_singleton (s : Style) : styleSource [s] = s.toBlock.sectionText := by
  simp [styleSource]

theorem yields_styleSource_iff {taken : List Text} {ss : List Style} {bs : List Block}
    (h : ∀ b ∈ ss.map Style.toBlock, b.Sound ∧ b.attrs.Quotable) :
    Yields taken (styleSource ss) bs ↔ bs = ss.map Style.toBlock := by
  induction ss generalizing bs with
  | nil => exact yields_nil_iff
  | cons s ss ih =>
    obtain ⟨⟨hs, hq⟩, hss⟩ := List.forall_mem_cons.1 h
    have hk : s.toBlock.kind ≠ "template" ∧ s.toBlock.kind ≠ "script" := by
      simp [Style.toBlock, Style.kind]
    obtain ⟨gap, hg, e⟩ : ∃ gap, '<' ∉ gap ∧
        styleSource (s :: ss) = s.toBlock.source ++ (gap ++ styleSource ss) := by
      by_cases hn : ss = []
      · refine ⟨['\n'], by decide, ?_⟩
        rw [hn, styleSource_singleton]
        simp [Block.sectionText, styleSource]
      · refine ⟨['\n', '\n'], by decide, ?_⟩
        rw [styleSource_cons hn]
        simp [Block.sectionText]
    rw [e, yields_repeatable_iff hs hq hk hg]
    simp [ih hss]

theorem yields_lineBreaks_iff {taken : List Text} {r : Text} {bs : List Block} :
    Yields taken (['\n', '\n'] ++ r) bs ↔ Yields taken r bs :=
  yields_text_iff (by simp)

theorem yields_emptySlot_iff {taken : List Text} {r : Text} {bs : List Block} :
    Yields taken (slotSource none ++ r) bs ↔ Yields taken r bs :=
  yields_text_iff (by simp [slotSource])

theorem slotSource_some (b : Block) (r : Text) :
    slotSource (some b) ++ r = b.source ++ (['\n', '\n'] ++ r) := by
  simp [slotSource, Block.sectionText]

theorem yields_single_iff {taken : List Text} {b : Block} {r : Text} {bs : List Block}
    (hs : b.Sound) (hq : b.attrs.Quotable) (hk : b.kind ∈ singletons) (ht : b.kind ∉ taken)
    (hu : b.Undisturbed (['\n', '\n'] ++ r)) :
    Yields taken (slotSource (some b) ++ r) bs ↔
      ∃ bs', bs = b :: bs' ∧ Yields (b.kind :: taken) r bs' := by
  rw [slotSource_some, yields_undisturbed_iff hs hq hu, Block.singleton?_eq_some hk]
  simp only [yields_lineBreaks_iff]
  constructor
  · intro h
    exact h.2
  · intro h
    exact ⟨by simpa using ht, h⟩

theorem yields_scriptAndStyles_iff {taken : List Text} {script : Option Block} {ss : List Style}
    {bs : List Block} (hk : ∀ b ∈ script, b.kind = "script") (ht : ("script" : Text) ∉ taken)
    (h : ∀ b ∈ script.toList ++ ss.map Style.toBlock, b.Sound ∧ b.attrs.Quotable) :
    Yields taken (slotSource script ++ styleSource ss) bs ↔
      bs = script.toList ++ ss.map Style.toBlock := by
  have hss : ∀ b ∈ ss.map Style.toBlock, b.Sound ∧ b.attrs.Quotable := fun b hb =>
    h b (List.mem_append_right _ hb)
  cases script with
  | none => exact yields_emptySlot_iff.trans (yields_styleSource_iff hss)
  | some b =>
    have hb : b.kind = "script" := hk b rfl
    obtain ⟨hs, hq⟩ := h b (by simp)
    have hu : ∀ r, b.Undisturbed r := fun r h => absurd (hb.symm.trans h) (by decide)
    rw [yields_single_iff hs hq (by rw [hb]; decide) (by rwa [hb]) (hu _)]
    simp [yields_styleSource_iff hss]

def behindTemplate (c : Component) : Text :=
  ['\n', '\n'] ++ (slotSource c.script ++ styleSource c.styles)

theorem source_eq (c : Component) : c.source = customSource c.customBlocks ++
    (slotSource c.template ++ (slotSource c.script ++ styleSource c.styles)) := by
  simp [source]

theorem template_ofBlocks_map {before behind : List Block} {b : Block}
    (hb : ∀ d ∈ before, d.kind ≠ Lexeme.kind) (h : b.kind = Lexeme.kind) :
    (ofBlocks ((before ++ b :: behind).map Block.deindented)).template = some b := by
  have hn : (before.map Block.deindented).find? (fun d => d.kind == Lexeme.kind) = none := by
    refine List.find?_eq_none.2 fun d hd => ?_
    obtain ⟨e, he, rfl⟩ := List.mem_map.1 hd
    simpa using hb e he
  have hp : (b.kind == Lexeme.kind) = true := by simpa using h
  change ((before ++ b :: behind).map Block.deindented).find? (fun d => d.kind == Lexeme.kind) = _
  rw [List.map_append, List.map_cons, Block.deindented_of_template h, List.find?_append, hn,
    Option.none_or]
  exact List.find?_cons_of_pos hp

section

variable {c : Component} (h : c.Normal) (hq : ∀ b ∈ c.blocks, b.attrs.Quotable)

include h hq

theorem Normal.yields_scriptAndStyles_iff {taken : List Text} {bs : List Block}
    (ht : ("script" : Text) ∉ taken) :
    Yields taken (slotSource c.script ++ styleSource c.styles) bs ↔
      bs = c.script.toList ++ c.styles.map Style.toBlock := by
  refine Component.yields_scriptAndStyles_iff h.inPlace.script ht fun b hm => ?_
  have hb : b ∈ c.blocks := List.mem_append_right _ (List.mem_append_right _ hm)
  exact ⟨h.sound b hb, hq b hb⟩

theorem Normal.yields_source_iff {bs : List Block} :
    Yields [] c.source bs ↔ ∃ bs', bs = c.customBlocks ++ bs' ∧
      Yields [] (slotSource c.template ++ (slotSource c.script ++ styleSource c.styles)) bs' := by
  rw [source_eq]
  refine yields_customSource_iff fun b hm => ?_
  have hb : b ∈ c.blocks := List.mem_append_left _ hm
  exact ⟨h.sound b hb, hq b hb, h.inPlace.customBlocks b hm⟩

theorem Normal.yields_source (hu : ∀ b ∈ c.template, b.Undisturbed c.behindTemplate) :
    Yields [] c.source c.blocks := by
  rw [h.yields_source_iff hq]
  refine ⟨_, rfl, ?_⟩
  cases ht : c.template with
  | none =>
    rw [yields_emptySlot_iff]
    exact (h.yields_scriptAndStyles_iff hq List.not_mem_nil).2 rfl
  | some b =>
    have hk : b.kind = "template" := h.inPlace.template b ht
    have hb : b ∈ c.blocks := by simp [blocks, ht]
    have hone : b.kind ∈ singletons := by rw [hk]; decide
    have hnot : ("script" : Text) ∉ [b.kind] := by rw [hk]; decide
    rw [yields_single_iff (h.sound b hb) (hq b hb) hone List.not_mem_nil (hu b ht)]
    exact ⟨_, rfl, (h.yields_scriptAndStyles_iff hq hnot).2 rfl⟩

theorem Normal.parse_source_deindent (hu : ∀ b ∈ c.template, b.Undisturbed c.behindTemplate)
    (deindent : Bool) : parse c.source deindent = .ok c := by
  refine parse_eq_ok_iff_yields.2 ⟨c.blocks, h.yields_source hq hu, ?_⟩
  rw [h.map_deindented, ite_self, h.inPlace.ofBlocks_blocks]

theorem Normal.parse_source (hu : ∀ b ∈ c.template, b.Undisturbed c.behindTemplate) :
    parse c.source true = .ok c :=
  h.parse_source_deindent hq hu true

theorem Normal.undisturbed_of_parse_source (hp : parse c.source true = .ok c) :
    ∀ b ∈ c.template, b.Undisturbed c.behindTemplate := by
  intro b ht hkind
  have ht : c.template = some b := ht
  have hb : b ∈ c.blocks := by simp [blocks, ht]
  obtain ⟨bs, hy, hbs⟩ := parse_eq_ok_iff_yields.1 hp
  obtain ⟨bs', rfl, hrest⟩ := (h.yields_source_iff hq).1 hy
  rw [ht, slotSource_some,
    yields_block_iff (h.sound b hb).name (h.sound b hb).attrs (hq b hb)] at hrest
  obtain ⟨_, content, gap, t, behind, he, rfl, _⟩ := hrest
  obtain ⟨e, _, _, hu⟩ := (blockEnd?_eq_some_iff (h.sound b hb).name).1 he
  -- The component that came back has the template that was read, so its content is that of `b`.
  have hslot : (ofBlocks ((c.customBlocks ++ ⟨b.kind, content, b.attrs⟩ :: behind).map
      Block.deindented)).template = some ⟨b.kind, content, b.attrs⟩ := by
    refine template_ofBlocks_map (fun d hd => ?_) hkind
    exact (kind_ne_of_isCustom (h.inPlace.customBlocks d hd)).2.1
  rw [if_pos rfl] at hbs
  rw [hbs, ht] at hslot
  have hcontent : content = b.content := congrArg Block.content (Option.some.inj hslot).symm
  subst hcontent
  rw [List.append_assoc] at e
  have htail : b.closeTag ++ c.behindTemplate = CloseTag.source b.kind gap ++ t :=
    List.append_cancel_left e
  rw [htail]
  exact hu hkind

end

theorem undisturbed_of_complete {c : Component}
    (h : ∀ b ∈ c.template, Lexeme.Complete b.content) :
    ∀ b ∈ c.template, b.Undisturbed c.behindTemplate :=
  fun b hb _ => (h b hb).undisturbed _

/-- A component that was read comes back from what it is written as, whatever the order of its
blocks was, if and only if its template is scanned in front of what is now behind it as it is scanned
alone. -/
theorem parse_source_iff_undisturbed {s : Text} {c : Component} (h : parse s true = .ok c)
    (hq : ∀ b ∈ c.blocks, b.attrs.Quotable) :
    parse c.source true = .ok c ↔ ∀ b ∈ c.template, b.Undisturbed c.behindTemplate :=
  ⟨(normal_of_parse h).undisturbed_of_parse_source hq, (normal_of_parse h).parse_source hq⟩

/-- A style block that stood in front of the template is written behind it. -/
theorem parse_source_iff_undisturbed_reordered :
    let s : Text := "1<style scoped>\n  -->\n</style >\n<template a='>'><!--</template>-->" ++
      "<template/></template><docs b=c/><style>\n  a\n   b</style\n>"
    let c : Component :=
      ⟨some ⟨"template", "<!--</template>--><template/>", .ofList [(['a'], .text ['>'])]⟩, none,
      [⟨"\n-->\n", .ofList [("scoped", .present)]⟩, ⟨"\na\n b", .empty⟩],
      [⟨"docs", [], .ofList [(['b'], .text ['c'])]⟩]⟩
    parse s true = .ok c ∧ parse c.source true = .ok c := by
  intro s c
  have h : parse s true = .ok c := by decide +kernel
  have hu : ∀ b ∈ c.template, Lexeme.Complete b.content := by decide +kernel
  exact ⟨h, (parse_source_iff_undisturbed h (by decide)).2 (undisturbed_of_complete hu)⟩

/-- The template opens a comment and does not end it. That is text while nothing behind the template
ends a comment, and the style block does once it is written there. -/
theorem parse_source_unfinished_comment :
    let s : Text := "<style>--></style><template><!--</template>"
    let c : Component := ⟨some ⟨"template", "<!--", .empty⟩, none, [⟨"-->", .empty⟩], []⟩
    parse s true = .ok c ∧ (∀ b ∈ c.blocks, b.attrs.Quotable) ∧
      parse c.source true = .error ⟨"Unclosed <template> block", some 1, some 1⟩ := by
  intro s c
  exact ⟨by decide +kernel, by decide, by decide +kernel⟩

end Component

end SfcTheme

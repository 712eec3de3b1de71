import SfcTheme.Proofs.Reserialization

/-!
A fault stands where the first wrong construct begins. Every piece before it was cut without a look
at anything behind it, so the source up to the fault is read, and into the same pieces.
-/

set_option autoImplicit false

namespace SfcTheme

namespace StartTag

theorem untilTagEnd_of_append {q : Option Char} {s t i r : Text}
    (h : untilTagEnd q (s ++ t) = some (i, r ++ t)) : untilTagEnd q s = some (i, r) := by
  obtain ⟨e, hi⟩ := untilTagEnd_eq_some_iff.1 h
  rw [← List.cons_append, ← List.append_assoc] at e
  exact untilTagEnd_eq_some_iff.2 ⟨List.append_cancel_right e, hi⟩

theorem longestName_eq_none_of_append {s t : Text} (h : longestName (s ++ t) = none) :
    longestName s = none := by
  rw [longestName_eq_none_iff] at h ⊢
  intro w u hs hw
  have ht : untilTagEnd none (u ++ t) = none := h w (u ++ t) (by rw [hs, List.append_assoc]) hw
  rw [Option.eq_none_iff_forall_ne_some]
  intro p hp
  rw [untilTagEnd_append hp] at ht
  cases ht

theorem longestName_of_append {s t name i r : Text}
    (h : longestName (s ++ t) = some (name, i, r ++ t)) : longestName s = some (name, i, r) := by
  induction s generalizing name with
  | nil =>
    have hl := congrArg List.length (longestName_sound h)
    simp only [List.nil_append, List.length_append, List.length_cons] at hl
    omega
  | cons c s ih =>
    rw [List.cons_append, longestName] at h
    rw [longestName]
    split at h
    · next n rest e =>
      cases h
      split at e
      · next hc => rw [if_pos hc, ih e]
      · cases e
    · next e =>
      have hn : (if isNameChar c then longestName s else none) = none := by
        by_cases hc : isNameChar c = true
        · rw [if_pos hc] at e ⊢
          exact longestName_eq_none_of_append e
        · exact if_neg hc
      rw [hn]
      obtain ⟨⟨j, u⟩, hj, e'⟩ := Option.map_eq_some_iff.1 h
      cases e'
      rw [untilTagEnd_of_append (s := c :: s) hj]
      rfl

theorem read?_of_append {s t r : Text} {tag : StartTag}
    (h : read? (s ++ t) = some (tag, r ++ t)) : read? s = some (tag, r) := by
  have e : s = tag.source ++ r := by
    have e := read?_sound h
    rw [← List.append_assoc] at e
    exact List.append_cancel_right e
  cases s with
  | nil => simp [source] at e
  | cons d s =>
    obtain rfl : d = '<' := (List.cons.inj e).1
    cases s with
    | nil => simp [source] at e
    | cons c s =>
      simp only [List.cons_append, read?] at h ⊢
      split at h
      · next hc =>
        obtain ⟨⟨n, i, u⟩, hn, e'⟩ := Option.map_eq_some_iff.1 h
        cases e'
        rw [if_pos hc, longestName_of_append hn]
        rfl
      · cases h

end StartTag

namespace Piece

theorem blockEnd?_of_append {kind s t content gap r : Text} (hk : StartTag.IsName kind)
    (h : blockEnd? kind (s ++ t) = some (content, gap, r ++ t)) :
    blockEnd? kind s = some (content, gap, r) := by
  obtain ⟨e, hg, hc, hu⟩ := (blockEnd?_eq_some_iff hk).1 h
  rw [← List.append_assoc] at e
  refine (blockEnd?_eq_some_iff hk).2 ⟨List.append_cancel_right e, hg, hc, fun ht => ?_⟩
  have hu := hu ht
  rw [← List.append_assoc] at hu
  exact hu.of_append

theorem isSuffix_of_ofTag {tag : StartTag} {s r : Text} {p : Piece}
    (h : ofTag tag s = .ok (p, r)) : r <:+ s := by
  unfold ofTag at h
  split at h
  · cases h
  · split at h
    · cases h; exact List.suffix_rfl
    · split at h
      · cases h
      · next content gap _ he =>
        cases h
        exact ⟨content ++ CloseTag.source tag.name gap, (blockEnd?_sound he).symm⟩

theorem ofTag_of_append {tag : StartTag} {s t r : Text} {p : Piece} (hn : StartTag.IsName tag.name)
    (h : ofTag tag (s ++ t) = .ok (p, r ++ t)) : ofTag tag s = .ok (p, r) := by
  unfold ofTag at h ⊢
  split at h
  · cases h
  · split at h
    · next hs =>
      obtain ⟨rfl, e⟩ := Prod.mk.inj (Except.ok.inj h)
      rw [if_pos hs, List.append_cancel_right e]
    · next hs =>
      split at h
      · cases h
      · next he =>
        obtain ⟨rfl, rfl⟩ := Prod.mk.inj (Except.ok.inj h)
        rw [if_neg hs, blockEnd?_of_append hn he]

theorem ofStray_of_append {s t r : Text} {p : Piece} (h : ofStray (s ++ t) = .ok (p, r ++ t)) :
    ofStray s = .ok (p, r) := by
  obtain ⟨hp, hr, hl⟩ := ofStray_eq_ok_iff.1 h
  refine ofStray_eq_ok_iff.2 ⟨hp, List.append_cancel_right hr, fun c hc => hl c ?_⟩
  rw [List.head?_append, hc]
  rfl

theorem takeWhile_of_dropWhile_append {p : Char → Bool} {s t r : Text}
    (h : (s ++ t).dropWhile p = r ++ t) :
    s.takeWhile p = (s ++ t).takeWhile p ∧ s.dropWhile p = r := by
  induction s with
  | nil =>
    have hl := congrArg List.length (List.takeWhile_append_dropWhile (p := p) (l := t))
    rw [List.nil_append] at h ⊢
    rw [h, List.length_append, List.length_append] at hl
    have ht : (t.takeWhile p).length = 0 := by omega
    have hr : r.length = 0 := by omega
    rw [List.length_eq_zero_iff.1 ht, List.length_eq_zero_iff.1 hr]
    exact ⟨rfl, rfl⟩
  | cons c s ih =>
    by_cases hc : p c = true
    · rw [List.cons_append, List.dropWhile_cons_of_pos hc] at h
      simp [hc, ih h]
    · rw [List.cons_append, List.dropWhile_cons_of_neg hc, ← List.cons_append] at h
      obtain rfl := List.append_cancel_right h
      simp [hc]

/-- What is cut from the start of a text is cut from it without a look at what is behind. -/
theorem next_of_append {c : Char} {s t r : Text} {p : Piece}
    (h : next c (s ++ t) = .ok (p, r ++ t)) : next c s = .ok (p, r) := by
  by_cases hc : c = '<'
  · subst hc
    simp only [next, if_true] at h
    split at h
    · next u hu =>
      split at h
      · next body v hb =>
        obtain ⟨rfl, rfl⟩ := Prod.mk.inj (Except.ok.inj h)
        obtain ⟨rfl, hbody⟩ := Comment.body?_eq_some_iff.1 hb
        have e : '<' :: s ++ t = Comment.source body ++ r ++ t := by
          rw [List.cons_append, ← List.append_eq_of_isPrefixOf?_eq_some hu, Comment.source]
          simp
        exact next_comment (List.append_cancel_right e) hbody
      · cases h
    · next ho =>
      have hs : ¬ Comment.opener <+: '<' :: s := fun hw =>
        Text.isPrefixOf?_eq_none_iff.1 ho (hw.trans (List.prefix_append ('<' :: s) t))
      split at h
      · next tag u ht =>
        obtain ⟨w, rfl⟩ := isSuffix_of_ofTag h
        rw [← List.append_assoc] at h ht
        have hn : StartTag.IsName tag.name := (StartTag.isTag_of_read? ht).name
        rw [next_tag hs (StartTag.read?_of_append (s := '<' :: s) ht)]
        exact ofTag_of_append hn h
      · obtain ⟨rfl, rfl, hl⟩ := ofStray_eq_ok_iff.1 (ofStray_of_append h)
        exact next_stray hs hl
  · simp only [next, if_neg hc] at h ⊢
    obtain ⟨rfl, e⟩ := Prod.mk.inj (Except.ok.inj h)
    obtain ⟨ht, hd⟩ := takeWhile_of_dropWhile_append e
    rw [ht, hd]

end Piece

/-- What a fault says of the text that begins where it stands, behind blocks of the kinds `taken`. -/
inductive MarkupFault.StandsAt (taken : List Text) : MarkupFault → Text → Prop where
  | unterminatedComment {s : Text} : ¬ Comment.closer <:+: s →
      StandsAt taken .unterminatedComment (Comment.opener ++ s)
  | malformedTag {c : Char} {s : Text} : Text.isLetter c = true →
      (∀ (tag : StartTag) (r : Text), tag.IsTag → '<' :: c :: s ≠ tag.source ++ r) →
      StandsAt taken .malformedTag ('<' :: c :: s)
  | malformedAttributes {s r : Text} {tag : StartTag} : StartTag.read? s = some (tag, r) →
      AttributeList.read? tag.raw = none → StandsAt taken (.malformedAttributes tag.raw) s
  | unclosed {s r : Text} {tag : StartTag} {attrs : Attrs} : StartTag.read? s = some (tag, r) →
      AttributeList.read? tag.raw = some attrs → tag.selfClosing = false →
      Piece.blockEnd? tag.name r = none → StandsAt taken (.unclosed tag.name) s
  | repeated {s r kind : Text} {p : Piece} : Piece.next '<' s = .ok (p, r) →
      p.singleton? = some kind → kind ∈ taken → StandsAt taken (.repeated kind) ('<' :: s)

theorem MarkupFault.StandsAt.mono {f : MarkupFault} {s : Text} {taken taken' : List Text}
    (h : f.StandsAt taken s) (ht : taken ⊆ taken') : f.StandsAt taken' s := by
  cases h with
  | unterminatedComment hc => exact .unterminatedComment hc
  | malformedTag hc ht => exact .malformedTag hc ht
  | malformedAttributes hr ha => exact .malformedAttributes hr ha
  | unclosed hr ha hs he => exact .unclosed hr ha hs he
  | repeated hn hk hm => exact .repeated hn hk (ht hm)

namespace Piece

theorem standsAt_of_ofTag {taken : List Text} {s r : Text} {tag : StartTag} {f : MarkupFault}
    (ht : StartTag.read? s = some (tag, r)) (h : ofTag tag r = .error f) : f.StandsAt taken s := by
  unfold ofTag at h
  split at h
  · next ha => cases h; exact .malformedAttributes ht ha
  · next attrs ha =>
    split at h
    · cases h
    · next hs =>
      split at h
      · next he => cases h; exact .unclosed ht ha (by simpa using hs) he
      · cases h

theorem standsAt_of_ofStray {taken : List Text} {s : Text} {f : MarkupFault}
    (ht : StartTag.read? ('<' :: s) = none) (h : ofStray s = .error f) :
    f.StandsAt taken ('<' :: s) := by
  cases s with
  | nil => cases h
  | cons c s =>
    rw [ofStray] at h
    split at h
    · next hc => cases h; exact .malformedTag hc (StartTag.read?_eq_none_iff.1 ht)
    · cases h

theorem standsAt_of_next {c : Char} {s : Text} {f : MarkupFault} (h : next c s = .error f)
    (taken : List Text) : c = '<' ∧ f.StandsAt taken (c :: s) := by
  unfold next at h
  split at h
  · next hc =>
    subst hc
    refine ⟨rfl, ?_⟩
    split at h
    · next t ho =>
      split at h
      · cases h
      · next hb =>
        cases h
        rw [← List.append_eq_of_isPrefixOf?_eq_some ho]
        exact .unterminatedComment (Comment.body?_eq_none_iff.1 hb)
    · split at h
      · next ht => exact standsAt_of_ofTag ht h
      · next ht => exact standsAt_of_ofStray ht h
  · cases h

theorem eq_lt_of_singleton? {c : Char} {s r kind : Text} {p : Piece} (h : next c s = .ok (p, r))
    (hp : p.singleton? = some kind) : c = '<' := by
  have hs := next_sound h
  cases p with
  | text | stray | comment => cases hp
  | selfClosing tag attrs => exact (List.cons.inj hs).1
  | block tag attrs content gap => exact (List.cons.inj hs).1

theorem cut_of_error {taken : List Text} {s : Text} {f : FaultAt}
    (h : ofTextAfter taken s = .error f) :
    ∃ before rest ps, s = before ++ '<' :: rest ∧ before.length = f.offset ∧
      Cut taken before ps ∧
      f.fault.StandsAt (singletonKinds (blocks ps) ++ taken) ('<' :: rest) := by
  fun_induction ofTextAfter taken s generalizing f with
  | case1 => cases h
  | case2 taken c s f' hn =>
    cases h
    obtain ⟨rfl, hf⟩ := standsAt_of_next hn taken
    exact ⟨[], s, [], rfl, rfl, .done, hf⟩
  | case3 taken c s p r hn _ kind hk =>
    cases h
    obtain ⟨hp, hm⟩ := Option.filter_eq_some_iff.1 hk
    obtain rfl := eq_lt_of_singleton? hn hp
    exact ⟨[], s, [], rfl, rfl, .done, .repeated hn hp (List.mem_append_right _ (by simpa using hm))⟩
  | case4 taken c s p r hn _ hk e he ih =>
    cases h
    -- The piece was cut in front of text that held the fault, and is cut again where that is gone.
    obtain ⟨before, rest, ps, rfl, hl, hc, hf⟩ := ih he
    obtain ⟨d, w, hw⟩ := List.exists_cons_of_ne_nil (source_next_ne_nil hn)
    have hs := next_sound hn
    rw [hw, List.cons_append, ← List.append_assoc] at hs
    obtain ⟨rfl, rfl⟩ := List.cons.inj hs
    refine ⟨c :: (w ++ before), rest, p :: ps, rfl, ?_,
      .step (next_of_append hn) (filter_contains_eq_none.1 hk) hc, hf.mono ?_⟩
    · simp only [hw, ← hl, List.length_cons, List.length_append]
      omega
    · rw [singletonKinds_blocks_cons, ← List.append_assoc]
      exact (List.perm_append_comm.append_right taken).subset
  | case5 => cases h

end Piece

namespace Component

theorem find?_kind_of_mem {bs : List Block} {b : Block} {kind : Text} (h : b ∈ bs)
    (hk : b.kind = kind) : ∃ d ∈ bs.find? (fun d => d.kind == kind), d.kind = kind := by
  have hs : (bs.find? fun d => d.kind == kind).isSome = true :=
    List.find?_isSome.2 ⟨b, h, beq_iff_eq.2 hk⟩
  obtain ⟨d, hd⟩ := Option.isSome_iff_exists.1 hs
  exact ⟨d, hd, by simpa using List.find?_some hd⟩

theorem kind_mem_ofBlocks {bs : List Block} {b : Block} (h : b ∈ bs) :
    b.kind ∈ (ofBlocks bs).blocks.map Block.kind := by
  simp only [blocks, List.map_append, List.mem_append, List.mem_map, Option.mem_toList]
  by_cases hstyle : b.kind = Style.kind
  · refine .inr (.inr (.inr ⟨b, ⟨⟨b.content, b.attrs⟩, ?_, ?_⟩, rfl⟩))
    · exact List.mem_filterMap.2 ⟨b, h, if_pos hstyle⟩
    · rw [Style.toBlock, ← hstyle]
  by_cases htemplate : b.kind = "template"
  · obtain ⟨d, hd, hk⟩ := find?_kind_of_mem h htemplate
    exact .inr (.inl ⟨d, hd, hk.trans htemplate.symm⟩)
  by_cases hscript : b.kind = "script"
  · obtain ⟨d, hd, hk⟩ := find?_kind_of_mem h hscript
    exact .inr (.inr (.inl ⟨d, hd, hk.trans hscript.symm⟩))
  · refine .inl ⟨b, List.mem_filter.2 ⟨h, ?_⟩, rfl⟩
    simpa [Block.isCustom, Piece.singletons, hstyle] using ⟨htemplate, hscript⟩

theorem located_of_read_error {source : Text} {deindent : Bool} {f : FaultAt}
    (h : read source deindent = .error f) :
    source[f.offset]? = some '<' ∧ ∃ c, parse (source.take f.offset) deindent = .ok c ∧
      f.fault.StandsAt (c.blocks.map Block.kind) (source.drop f.offset) := by
  have hf : Piece.ofText source = .error f := by
    rw [read] at h
    cases hp : Piece.ofText source with
    | error f' => rw [hp] at h; cases h; rfl
    | ok ps => rw [hp] at h; cases h
  obtain ⟨before, rest, ps, rfl, hl, hc, hs⟩ := Piece.cut_of_error hf
  rw [← hl, List.take_left, List.drop_left]
  refine ⟨by simp, _, parse_eq_ok_iff.2 ⟨ps, hc, rfl⟩, hs.mono fun k hk => ?_⟩
  rw [List.append_nil] at hk
  obtain ⟨b, hb, rfl⟩ := List.mem_map.1 (List.mem_filter.1 hk).1
  cases deindent with
  | false => exact kind_mem_ofBlocks hb
  | true =>
    have hd := kind_mem_ofBlocks (List.mem_map_of_mem (f := Block.deindented) hb)
    rwa [Block.kind_deindented] at hd

/-- An error gives the line and the column of a '<', and names what is wrong with the text from there
on. The source up to that '<' is read. -/
theorem located_of_parse_error {source : Text} {deindent : Bool} {e : MarkupError}
    (h : parse source deindent = .error e) :
    ∃ (f : MarkupFault) (offset : Nat) (c : Component),
      e = ⟨f.message, some (Position.ofOffset source offset).line,
        some (Position.ofOffset source offset).column⟩ ∧
      source[offset]? = some '<' ∧ parse (source.take offset) deindent = .ok c ∧
      f.StandsAt (c.blocks.map Block.kind) (source.drop offset) := by
  cases hr : read source deindent with
  | ok c => rw [parse, hr] at h; cases h
  | error f =>
    rw [parse, hr] at h
    cases h
    obtain ⟨hlt, c, hc, hs⟩ := located_of_read_error hr
    exact ⟨f.fault, f.offset, c, rfl, hlt, hc, hs⟩

/-- A second script, behind a comment that hides a close tag and in front of a tag that never ends. -/
theorem located_of_parse_error_second_script :
    let source : Text := "1<2\n<template><!-- </template> --></template>\n" ++
      "<script/><style a='>'>\n  b</style >\n  <script>c</script><d \""
    let e : MarkupError := ⟨"Only one <script> block is allowed", some 5, some 3⟩
    parse source true = .error e ∧ ∃ (f : MarkupFault) (offset : Nat) (c : Component),
      e = ⟨f.message, some (Position.ofOffset source offset).line,
        some (Position.ofOffset source offset).column⟩ ∧
      source[offset]? = some '<' ∧ parse (source.take offset) true = .ok c ∧
      f.StandsAt (c.blocks.map Block.kind) (source.drop offset) := by
  intro source e
  have h : parse source true = .error e := by decide +kernel
  exact ⟨h, located_of_parse_error h⟩

end Component

end SfcTheme

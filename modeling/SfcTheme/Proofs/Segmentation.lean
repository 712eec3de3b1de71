import SfcTheme.Markup.Reader
import SfcTheme.Proofs.TagName
import SfcTheme.Proofs.TemplateContent

/-!
A source that has a component is its pieces in a row, each of which is what it claims to be in front
of the pieces behind it, and the component holds the block of every piece that has one.
-/

set_option autoImplicit false

namespace SfcTheme

/-- A content that its close tag ends: the tags of a template's own templates balance, and any other
block has no close tag in it. -/
def Enclosed (kind content : Text) : Prop :=
  if kind = Lexeme.kind then Lexeme.depthAfter 0 (Lexeme.ofText content) = some 0
  else ¬ CloseTag.Within kind content

namespace Piece

theorem blockEnd?_eq_some_iff {kind s content gap r : Text} (hk : StartTag.IsName kind) :
    blockEnd? kind s = some (content, gap, r) ↔
      s = content ++ CloseTag.source kind gap ++ r ∧ CloseTag.IsGap gap ∧ Enclosed kind content ∧
        (kind = Lexeme.kind → Lexeme.Undisturbed content (CloseTag.source kind gap ++ r)) := by
  unfold blockEnd? Enclosed
  split
  · next h => subst h; simp [templateEnd?_eq_some_iff]
  · next h => simp [CloseTag.first?_eq_some_iff hk, h]

theorem next_comment {s body r : Text} (h : '<' :: s = Comment.source body ++ r)
    (hb : Comment.IsBody body) : next '<' s = .ok (.comment body, r) := by
  have ho : Comment.opener.isPrefixOf? ('<' :: s) = some (body ++ Comment.closer ++ r) := by
    rw [h]
    exact List.isPrefixOf?_eq_some_iff_append_eq.2 (by simp [Comment.source])
  have hbody : Comment.body? (body ++ Comment.closer ++ r) = some (body, r) :=
    Comment.body?_eq_some_iff.2 ⟨rfl, hb⟩
  simp only [next, if_true, ho, hbody]

theorem next_tag {s r : Text} {tag : StartTag} (ho : ¬ Comment.opener <+: '<' :: s)
    (ht : StartTag.read? ('<' :: s) = some (tag, r)) : next '<' s = ofTag tag r := by
  simp only [next, if_true, Text.isPrefixOf?_eq_none_iff.2 ho, ht]

theorem not_opener_of_isNameStart {c : Char} {s : Text} (hc : StartTag.isNameStart c = true) :
    ¬ Comment.opener <+: '<' :: c :: s := by
  rintro ⟨u, hu⟩
  obtain ⟨rfl, _⟩ : '!' = c ∧ _ := by simpa [Comment.opener] using hu
  cases hc

theorem next_of_read? {s r : Text} {tag : StartTag} (h : StartTag.read? s = some (tag, r)) :
    ∃ t, s = '<' :: t ∧ next '<' t = ofTag tag r := by
  obtain ⟨c, t, rfl, hc⟩ := StartTag.exists_cons_of_read? h
  exact ⟨c :: t, rfl, next_tag (not_opener_of_isNameStart hc) h⟩

theorem next_stray {t : Text} (ho : ¬ Comment.opener <+: '<' :: t)
    (hl : ∀ c ∈ t.head?, Text.isLetter c = false) : next '<' t = .ok (.stray, t) := by
  cases t with
  | nil => rfl
  | cons c t =>
    have hc : Text.isLetter c = false := hl c rfl
    have hs : StartTag.isNameStart c = false := by
      cases h : StartTag.isNameStart c with
      | false => rfl
      | true => rw [Text.isLetter_of_isAlpha h] at hc; cases hc
    have hr : StartTag.read? ('<' :: c :: t) = none := by simp [StartTag.read?, hs]
    simp [next, Text.isPrefixOf?_eq_none_iff.2 ho, hr, ofStray, hc]

/-- What a piece is in front of the text `r`. -/
inductive Fits : Piece → Text → Prop where
  | text {s r : Text} : s ≠ [] → '<' ∉ s → (∀ c ∈ r.head?, c = '<') → Fits (.text s) r
  | stray {r : Text} : ¬ Comment.opener <+: '<' :: r → (∀ c ∈ r.head?, Text.isLetter c = false) →
      Fits .stray r
  | comment {body r : Text} : Comment.IsBody body → Fits (.comment body) r
  | selfClosing {tag : StartTag} {attrs : Attrs} {r : Text} : tag.IsWhole → tag.selfClosing = true →
      AttributeList.read? tag.raw = some attrs → Fits (.selfClosing tag attrs) r
  | block {tag : StartTag} {attrs : Attrs} {content gap r : Text} : tag.IsWhole →
      tag.selfClosing = false → AttributeList.read? tag.raw = some attrs → CloseTag.IsGap gap →
      Enclosed tag.name content →
      (tag.name = Lexeme.kind → Lexeme.Undisturbed content (CloseTag.source tag.name gap ++ r)) →
      Fits (.block tag attrs content gap) r

theorem fits_ofTag {tag : StartTag} {s t r : Text} {p : Piece}
    (ht : StartTag.read? s = some (tag, t)) (h : ofTag tag t = .ok (p, r)) : p.Fits r := by
  unfold ofTag at h
  split at h
  · cases h
  · next attrs ha =>
    have hw := StartTag.isWhole_of_read? ht ha
    split at h
    · next hs => cases h; exact .selfClosing hw hs ha
    · next hs =>
      split at h
      · cases h
      · next content gap r' hb =>
        cases h
        obtain ⟨_, hg, hc, hu⟩ := (blockEnd?_eq_some_iff hw.name).1 hb
        exact .block hw (by simpa using hs) ha hg hc hu

theorem ofStray_eq_ok_iff {s r : Text} {p : Piece} :
    ofStray s = .ok (p, r) ↔
      p = .stray ∧ r = s ∧ ∀ c ∈ s.head?, Text.isLetter c = false := by
  constructor
  · intro h
    cases s with
    | nil => cases h; simp
    | cons c s =>
      rw [ofStray] at h
      split at h
      · cases h
      · next hc => cases h; simpa using hc
  · rintro ⟨rfl, rfl, hl⟩
    cases r with
    | nil => rfl
    | cons c r => simp [ofStray, hl c rfl]

theorem fits_ofStray {s r : Text} {p : Piece} (ho : Comment.opener.isPrefixOf? ('<' :: s) = none)
    (h : ofStray s = .ok (p, r)) : p.Fits r := by
  obtain ⟨rfl, rfl, hl⟩ := ofStray_eq_ok_iff.1 h
  exact .stray (Text.isPrefixOf?_eq_none_iff.1 ho) hl

theorem fits_next {c : Char} {s r : Text} {p : Piece} (h : next c s = .ok (p, r)) : p.Fits r := by
  unfold next at h
  split at h
  · next hc =>
    subst hc
    split at h
    · split at h
      · next hb => cases h; exact .comment (Comment.body?_eq_some_iff.1 hb).2
      · cases h
    · next ho =>
      split at h
      · next ht => exact fits_ofTag ht h
      · exact fits_ofStray ho h
  · next hc =>
    cases h
    refine .text (by simp) ?_ fun d hd => by simpa using AttributeList.head?_dropWhile d hd
    rw [List.mem_cons, not_or]
    refine ⟨fun e => hc e.symm, fun hm => ?_⟩
    simpa using List.all_eq_true.1 List.all_takeWhile _ hm

theorem next_of_fits {p : Piece} {r : Text} (h : p.Fits r) :
    ∃ c s, p.source ++ r = c :: s ∧ next c s = .ok (p, r) := by
  cases h with
  | text hne hs hr =>
    obtain ⟨c, s, rfl⟩ := List.exists_cons_of_ne_nil hne
    rw [List.mem_cons, not_or] at hs
    obtain ⟨ht, hd⟩ := Text.takeWhile_dropWhile_append (p := (· != '<')) (s := s) (r := r)
      (fun d hd => bne_iff_ne.2 fun e => hs.2 (e ▸ hd)) (fun d hd => by simp [hr d hd])
    exact ⟨c, s ++ r, rfl, by rw [next, if_neg (Ne.symm hs.1), ht, hd]⟩
  | stray ho hl => exact ⟨'<', r, rfl, next_stray ho hl⟩
  | comment hb => exact ⟨'<', _, rfl, next_comment rfl hb⟩
  | selfClosing hw hs ha =>
    obtain ⟨t, ht, hn⟩ := next_of_read? (StartTag.read?_of_isWhole hw r)
    refine ⟨'<', t, ht, ?_⟩
    simp only [hn, ofTag, ha, hs, if_true]
  | @block tag attrs content gap _ hw hs ha hg hc hu =>
    obtain ⟨t, ht, hn⟩ := next_of_read?
      (StartTag.read?_of_isWhole hw (content ++ CloseTag.source tag.name gap ++ r))
    have he : blockEnd? tag.name (content ++ CloseTag.source tag.name gap ++ r) =
        some (content, gap, r) := (blockEnd?_eq_some_iff hw.name).2 ⟨rfl, hg, hc, hu⟩
    refine ⟨'<', t, by rw [← ht, source]; simp, ?_⟩
    simp only [hn, ofTag, ha, hs, Bool.false_eq_true, if_false, he]

inductive Segmented : List Piece → Prop where
  | nil : Segmented []
  | cons {p : Piece} {ps : List Piece} : p.Fits (sources ps) → Segmented ps → Segmented (p :: ps)

/-- Cutting step by step, with the kinds of which a block stands already. -/
inductive Cut : List Text → Text → List Piece → Prop where
  | done {taken : List Text} : Cut taken [] []
  | step {taken : List Text} {c : Char} {s r : Text} {p : Piece} {ps : List Piece} :
      next c s = .ok (p, r) → (∀ k ∈ p.singleton?, k ∉ taken) →
      Cut (p.singleton?.toList ++ taken) r ps → Cut taken (c :: s) (p :: ps)

theorem filter_contains_eq_none {k? : Option Text} {taken : List Text} :
    k?.filter taken.contains = none ↔ ∀ k ∈ k?, k ∉ taken := by
  cases k? <;> simp [Option.filter]

theorem ofTextAfter_eq_ok_iff {taken : List Text} {s : Text} {ps : List Piece} :
    ofTextAfter taken s = .ok ps ↔ Cut taken s ps := by
  constructor
  · intro h
    fun_induction ofTextAfter taken s generalizing ps with
    | case1 => cases h; exact .done
    | case2 => cases h
    | case3 => cases h
    | case4 => cases h
    | case5 =>
      rename_i hn _ hk ps' hr ih
      cases h
      exact .step hn (filter_contains_eq_none.1 hk) (ih hr)
  · intro h
    induction h with
    | done => rw [ofTextAfter]
    | step hn hk _ ih =>
      rw [ofTextAfter]
      split
      · next e => rw [hn] at e; cases e
      · next e =>
        rw [hn] at e
        cases e
        simp only [filter_contains_eq_none.2 hk, ih]

inductive Reaches : List Text → Text → List Text → Text → Prop where
  | here {taken : List Text} {s : Text} : Reaches taken s taken s
  | step {taken seen : List Text} {c : Char} {s t r : Text} {p : Piece} :
      next c s = .ok (p, t) → (∀ k ∈ p.singleton?, k ∉ taken) →
      Reaches (p.singleton?.toList ++ taken) t seen r → Reaches taken (c :: s) seen r

theorem Reaches.error {taken seen : List Text} {s r : Text} {f : FaultAt}
    (h : Reaches taken s seen r) (hf : ofTextAfter seen r = .error f) :
    ∃ before, s = before ++ r ∧ ofTextAfter taken s = .error ⟨f.fault, before.length + f.offset⟩ := by
  induction h with
  | here => exact ⟨[], rfl, by simpa using hf⟩
  | @step taken seen c s t r p hn hk _ ih =>
    obtain ⟨before, ht, he⟩ := ih hf
    have hs : c :: s = p.source ++ before ++ r := by rw [next_sound hn, ht, List.append_assoc]
    refine ⟨p.source ++ before, hs, ?_⟩
    rw [ofTextAfter]
    split
    · next e => rw [hn] at e; cases e
    · next e =>
      rw [hn] at e
      cases e
      simp [filter_contains_eq_none.2 hk, he, Nat.add_assoc]

def blocks (ps : List Piece) : List Block := ps.filterMap block?

def singletonKinds (bs : List Block) : List Text := (bs.map Block.kind).filter singletons.contains

theorem singletonKinds_cons (b : Block) (bs : List Block) :
    singletonKinds (b :: bs) =
      ((some b.kind).filter singletons.contains).toList ++ singletonKinds bs := by
  rw [singletonKinds, List.map_cons, List.filter_cons, Option.filter]
  split <;> rfl

theorem singletonKinds_blocks_cons (p : Piece) (ps : List Piece) :
    singletonKinds (blocks (p :: ps)) = p.singleton?.toList ++ singletonKinds (blocks ps) := by
  cases p with
  | text | stray | comment => rfl
  | selfClosing tag attrs => exact singletonKinds_cons ⟨tag.name, [], attrs⟩ (blocks ps)
  | block tag attrs content gap =>
    exact singletonKinds_cons ⟨tag.name, content, attrs⟩ (blocks ps)

theorem singletonKinds_perm (p : Piece) (ps : List Piece) (taken : List Text) :
    (singletonKinds (blocks (p :: ps)) ++ taken).Perm
      (singletonKinds (blocks ps) ++ (p.singleton?.toList ++ taken)) := by
  rw [singletonKinds_blocks_cons, List.append_assoc]
  exact List.perm_append_comm_assoc _ _ _

theorem singletonKinds_nodup_iff {bs : List Block} :
    (singletonKinds bs).Nodup ↔ ∀ k ∈ singletons, (bs.map Block.kind).count k ≤ 1 := by
  rw [List.nodup_iff_count]
  refine ⟨fun h k hk => ?_, fun h k => ?_⟩
  · have := h k
    rwa [singletonKinds, List.count_filter (by simpa using hk)] at this
  · by_cases hk : k ∈ singletons
    · rw [singletonKinds, List.count_filter (by simpa using hk)]
      exact h k hk
    · have hn : k ∉ singletonKinds bs := fun hm => hk (by simpa using (List.mem_filter.1 hm).2)
      rw [List.count_eq_zero.2 hn]
      exact Nat.zero_le 1

theorem nodup_toList_append_iff {k? : Option Text} {taken : List Text} :
    (k?.toList ++ taken).Nodup ↔ (∀ k ∈ k?, k ∉ taken) ∧ taken.Nodup := by
  cases k? <;> simp

theorem Cut.segmented {taken : List Text} {s : Text} {ps : List Piece} (h : Cut taken s ps) :
    sources ps = s ∧ Segmented ps := by
  induction h with
  | done => exact ⟨rfl, .nil⟩
  | step hn _ _ ih =>
    obtain ⟨rfl, hs⟩ := ih
    exact ⟨(next_sound hn).symm, .cons (fits_next hn) hs⟩

theorem Cut.nodup {taken : List Text} {s : Text} {ps : List Piece} (h : Cut taken s ps)
    (ht : taken.Nodup) : (singletonKinds (blocks ps) ++ taken).Nodup := by
  induction h with
  | done => exact ht
  | @step taken c s r p ps _ hk _ ih =>
    exact (singletonKinds_perm p ps taken).nodup_iff.2 (ih (nodup_toList_append_iff.2 ⟨hk, ht⟩))

theorem Segmented.cut {taken : List Text} {ps : List Piece} (h : Segmented ps)
    (hn : (singletonKinds (blocks ps) ++ taken).Nodup) : Cut taken (sources ps) ps := by
  induction h generalizing taken with
  | nil => exact .done
  | @cons p ps hp _ ih =>
    have hn := (singletonKinds_perm p ps taken).nodup_iff.1 hn
    have hk := (nodup_toList_append_iff.1 (List.nodup_append.1 hn).2.1).1
    obtain ⟨c, s, hs, hnext⟩ := next_of_fits hp
    rw [show sources (p :: ps) = c :: s from hs]
    exact .step hnext hk (ih hn)

theorem cut_iff {taken : List Text} {s : Text} {ps : List Piece} (ht : taken.Nodup) :
    Cut taken s ps ↔
      sources ps = s ∧ Segmented ps ∧ (singletonKinds (blocks ps) ++ taken).Nodup := by
  constructor
  · intro h
    exact ⟨h.segmented.1, h.segmented.2, h.nodup ht⟩
  · rintro ⟨rfl, hs, hn⟩
    exact hs.cut hn

/-- A text is pieces that fit in one way. -/
theorem Segmented.unique {ps qs : List Piece} (hp : Segmented ps) (hq : Segmented qs)
    (h : sources ps = sources qs) : ps = qs := by
  induction hp generalizing qs with
  | nil =>
    cases hq with
    | nil => rfl
    | cons hq _ =>
      obtain ⟨c, s, hs, _⟩ := next_of_fits hq
      cases h.trans hs
  | cons hp _ ih =>
    obtain ⟨c, s, hs, hn⟩ := next_of_fits hp
    cases hq with
    | nil => cases h.symm.trans hs
    | cons hq hqs =>
      obtain ⟨d, t, ht, hm⟩ := next_of_fits hq
      obtain ⟨rfl, rfl⟩ := List.cons.inj (hs.symm.trans (h.trans ht))
      obtain ⟨rfl, e⟩ := Prod.mk.inj (Except.ok.inj (hn.symm.trans hm))
      rw [ih hqs e]

end Piece

namespace Component

def ofKind (kind : Text) (bs : List Block) : List Block := bs.filter fun b => b.kind == kind

/-- Every block stands in the slot of its kind and in no other, and those of one slot in order. -/
structure Holds (c : Component) (bs : List Block) : Prop where
  template : c.template.toList = ofKind "template" bs
  script : c.script.toList = ofKind "script" bs
  styles : c.styles.map Style.toBlock = ofKind Style.kind bs
  customBlocks : c.customBlocks = bs.filter Block.isCustom

theorem find?_toList {α : Type} {p : α → Bool} {l : List α} (h : (l.filter p).length ≤ 1) :
    (l.find? p).toList = l.filter p := by
  rw [← List.head?_filter]
  match l.filter p, h with
  | [], _ => rfl
  | [a], _ => rfl

theorem map_style? (bs : List Block) :
    (bs.filterMap Block.style?).map Style.toBlock = ofKind Style.kind bs := by
  induction bs with
  | nil => rfl
  | cons b bs ih =>
    by_cases h : b.kind = Style.kind
    · obtain ⟨k, x, as⟩ := b
      simp only at h
      subst h
      simpa [Block.style?, ofKind, Style.toBlock] using ih
    · simpa [Block.style?, ofKind, h] using ih

theorem count_kind (k : Text) (bs : List Block) :
    (bs.map Block.kind).count k = (ofKind k bs).length := by
  rw [List.count_eq_length_filter, List.filter_map, List.length_map]
  rfl

theorem holds_ofBlocks {bs : List Block} (h : (Piece.singletonKinds bs).Nodup) :
    (ofBlocks bs).Holds bs := by
  have hk : ∀ k ∈ Piece.singletons, (ofKind k bs).length ≤ 1 := fun k hk => by
    rw [← count_kind]
    exact Piece.singletonKinds_nodup_iff.1 h k hk
  exact ⟨find?_toList (hk "template" (by decide)), find?_toList (hk "script" (by decide)),
    map_style? bs, rfl⟩

theorem toList_injective {α : Type} : Function.Injective (@Option.toList α) := by
  intro a b h
  simpa using congrArg List.head? h

theorem toBlock_injective : Function.Injective Style.toBlock := by
  intro s t h
  obtain ⟨_, _⟩ := s
  cases h
  rfl

theorem Holds.unique {c d : Component} {bs : List Block} (hc : c.Holds bs) (hd : d.Holds bs) :
    c = d := by
  have ht : c.template = d.template := toList_injective (hc.template.trans hd.template.symm)
  have hs : c.script = d.script := toList_injective (hc.script.trans hd.script.symm)
  have hss : c.styles = d.styles :=
    List.map_injective_iff.2 toBlock_injective (hc.styles.trans hd.styles.symm)
  have hcs : c.customBlocks = d.customBlocks := hc.customBlocks.trans hd.customBlocks.symm
  obtain ⟨t, s, ss, cs⟩ := c
  simp only at ht hs hss hcs
  rw [ht, hs, hss, hcs]

theorem holds_iff {c : Component} {bs : List Block} :
    c.Holds bs ↔ (Piece.singletonKinds bs).Nodup ∧ ofBlocks bs = c := by
  constructor
  · intro h
    have hn : (Piece.singletonKinds bs).Nodup := by
      refine Piece.singletonKinds_nodup_iff.2 fun k hk => ?_
      have hle : ∀ slot : Option Block, slot.toList.length ≤ 1 := fun slot => by
        cases slot <;> simp
      rw [count_kind]
      simp only [Piece.singletons, List.mem_cons, List.not_mem_nil, or_false] at hk
      rcases hk with rfl | rfl
      · exact h.template ▸ hle c.template
      · exact h.script ▸ hle c.script
    exact ⟨hn, (holds_ofBlocks hn).unique h⟩
  · rintro ⟨hn, rfl⟩
    exact holds_ofBlocks hn

theorem parse_eq_ok_iff {source : Text} {deindent : Bool} {c : Component} :
    parse source deindent = .ok c ↔ ∃ ps, Piece.Cut [] source ps ∧ ofPieces deindent ps = c := by
  simp only [← Piece.ofTextAfter_eq_ok_iff]
  cases h : Piece.ofTextAfter [] source <;>
    simp [parse, read, Piece.ofText, h, Except.map, Except.mapError]

/-- Cutting comes to the offset, so something begins there. -/
def Reaches (source : Text) (offset : Nat) : Prop :=
  ∃ seen, Piece.Reaches [] source seen (source.drop offset)

theorem parse_of_reaches {source s : Text} {offset : Nat} {c : Char} {f : MarkupFault}
    (h : Reaches source offset) (hs : source.drop offset = c :: s)
    (hf : Piece.next c s = .error f) (deindent : Bool) :
    parse source deindent = .error (.ofFault source ⟨f, offset⟩) := by
  obtain ⟨seen, h⟩ := h
  have hnext : Piece.ofTextAfter seen (source.drop offset) = .error ⟨f, 0⟩ := by
    rw [hs, Piece.ofTextAfter]
    split
    · next e => rw [hf] at e; cases e; rfl
    · next e => rw [hf] at e; cases e
  obtain ⟨before, hb, he⟩ := h.error hnext
  have hl : before.length = offset := by
    have hpos := congrArg List.length hs
    have hlen := congrArg List.length hb
    simp only [List.length_append, List.length_drop, List.length_cons] at hpos hlen
    omega
  rw [parse, read, Piece.ofText, he, hl]
  rfl

/-- A source gives a component exactly if it is made of pieces whose blocks the component holds, and
then it is made of them in one way. No character is lost and none is read twice. -/
theorem parse_eq_ok_iff_segmented {source : Text} {c : Component} :
    parse source false = .ok c ↔
      ∃! ps, Piece.sources ps = source ∧ Piece.Segmented ps ∧ c.Holds (Piece.blocks ps) := by
  have hcut : ∀ ps, Piece.Cut [] source ps ∧ ofPieces false ps = c ↔
      Piece.sources ps = source ∧ Piece.Segmented ps ∧ c.Holds (Piece.blocks ps) := by
    intro ps
    rw [Piece.cut_iff List.nodup_nil, List.append_nil, holds_iff, and_assoc, and_assoc]
    rfl
  rw [parse_eq_ok_iff]
  constructor
  · intro h
    obtain ⟨ps, h⟩ := h
    have hps := (hcut ps).1 h
    refine ⟨ps, hps, fun qs hqs => ?_⟩
    exact hqs.2.1.unique hps.2.1 (hqs.1.trans hps.1.symm)
  · intro h
    obtain ⟨ps, hps, _⟩ := h
    exact ⟨ps, (hcut ps).2 hps⟩

/-- Pieces of all five sorts. Blocks whose names are cut short are none of this source. -/
theorem parse_eq_ok_iff_segmented_whole_names :
    let s : Text := "1<2<!-- <script> --><docs src=x/><template><template/><!--</template>-->" ++
      "</template ><ab></a></ab\n><style theme=dark/>"
    let template : Block := ⟨"template", "<template/><!--</template>-->", .empty⟩
    let docs : Block := ⟨"docs", [], .ofList [("src", .text ['x'])]⟩
    let whole : Component := ⟨some template, none, [⟨[], .ofList [("theme", .text "dark")]⟩],
      [docs, ⟨"ab", "</a>", .empty⟩]⟩
    let part : Component := ⟨some template, none, [],
      [docs, ⟨['a'], [], .ofList [(['b'], .present)]⟩,
        ⟨['s'], [], .ofList [("tyle", .present), ("theme", .text "dark")]⟩]⟩
    (∃! ps, Piece.sources ps = s ∧ Piece.Segmented ps ∧ whole.Holds (Piece.blocks ps)) ∧
      ¬ ∃! ps, Piece.sources ps = s ∧ Piece.Segmented ps ∧ part.Holds (Piece.blocks ps) := by
  intro s template docs whole part
  have h : parse s false = .ok whole := by decide +kernel
  have hne : whole ≠ part := by decide
  refine ⟨parse_eq_ok_iff_segmented.1 h, fun hp => hne ?_⟩
  exact Except.ok.inj (h.symm.trans (parse_eq_ok_iff_segmented.2 hp))

end Component

end SfcTheme

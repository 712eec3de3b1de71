import SfcTheme.Proofs.Segmentation

set_option autoImplicit false

namespace SfcTheme

namespace Piece

/-- The blocks that are read from a text, behind blocks of the kinds `taken`. -/
def Yields (taken : List Text) (s : Text) (bs : List Block) : Prop :=
  ∃ ps, Cut taken s ps ∧ blocks ps = bs

theorem yields_nil_iff {taken : List Text} {bs : List Block} : Yields taken [] bs ↔ bs = [] := by
  constructor
  · intro h
    obtain ⟨ps, hc, rfl⟩ := h
    cases hc
    rfl
  · intro h
    subst h
    exact ⟨[], .done, rfl⟩

theorem yields_cons_iff {taken : List Text} {c : Char} {s r : Text} {p : Piece} {bs : List Block}
    (hn : next c s = .ok (p, r)) :
    Yields taken (c :: s) bs ↔ (∀ k ∈ p.singleton?, k ∉ taken) ∧
      ∃ bs', bs = p.block?.toList ++ bs' ∧ Yields (p.singleton?.toList ++ taken) r bs' := by
  constructor
  · intro h
    obtain ⟨ps, hc, rfl⟩ := h
    cases hc with
    | step hn' hk hr =>
      rw [hn] at hn'
      cases hn'
      refine ⟨hk, _, ?_, _, hr, rfl⟩
      cases hb : p.block? <;> simp [blocks, hb]
  · intro h
    obtain ⟨hk, bs', rfl, ps, hr, rfl⟩ := h
    refine ⟨p :: ps, .step hn hk hr, ?_⟩
    cases hb : p.block? <;> simp [blocks, hb]

theorem yields_gap_iff {taken : List Text} {c : Char} {s r : Text} {p : Piece} {bs : List Block}
    (hn : next c s = .ok (p, r)) (hk : p.singleton? = none) (hb : p.block? = none) :
    Yields taken (c :: s) bs ↔ Yields taken r bs := by
  rw [yields_cons_iff hn, hk, hb]
  simp

theorem yields_text_cons_iff {taken : List Text} {c : Char} {t : Text} {bs : List Block}
    (hc : c ≠ '<') : Yields taken (c :: t) bs ↔ Yields taken t bs := by
  have key : ∀ d u, d ≠ '<' →
      (Yields taken (d :: u) bs ↔ Yields taken (u.dropWhile (· != '<')) bs) := fun d u hd =>
    yields_gap_iff (show next d u = .ok (.text (d :: u.takeWhile (· != '<')), _) by simp [next, hd])
      rfl rfl
  rw [key c t hc]
  cases t with
  | nil => rfl
  | cons d u =>
    by_cases hd : d = '<'
    · subst hd; rfl
    · rw [key d u hd, List.dropWhile_cons_of_pos (by simpa using hd)]

theorem yields_text_iff {taken : List Text} {s t : Text} {bs : List Block} (hs : '<' ∉ s) :
    Yields taken (s ++ t) bs ↔ Yields taken t bs := by
  induction s with
  | nil => rfl
  | cons c s ih =>
    rw [List.mem_cons, not_or] at hs
    rw [List.cons_append, yields_text_cons_iff (Ne.symm hs.1), ih hs.2]

theorem yields_comment_iff {taken : List Text} {body t : Text} {bs : List Block}
    (hb : Comment.IsBody body) :
    Yields taken (Comment.source body ++ t) bs ↔ Yields taken t bs :=
  yields_gap_iff (next_comment rfl hb) rfl rfl

theorem yields_stray_iff {taken : List Text} {t : Text} {bs : List Block}
    (ho : ¬ Comment.opener <+: '<' :: t) (hl : ∀ c ∈ t.head?, Text.isLetter c = false) :
    Yields taken ('<' :: t) bs ↔ Yields taken t bs :=
  yields_gap_iff (next_stray ho hl) rfl rfl

end Piece

namespace Block

structure Sound (b : Block) : Prop where
  name : StartTag.IsName b.kind
  attrs : b.attrs.Sound
  content : Enclosed b.kind b.content

def closeTag (b : Block) : Text := CloseTag.source b.kind []

def startTag (b : Block) : StartTag := ⟨b.kind, b.attrs.source, false⟩

def singleton? (b : Block) : Option Text := (some b.kind).filter Piece.singletons.contains

@[simp] theorem kind_deindented (b : Block) : b.deindented.kind = b.kind := by
  unfold deindented
  split <;> rfl

@[simp] theorem attrs_deindented (b : Block) : b.deindented.attrs = b.attrs := by
  unfold deindented
  split <;> rfl

/-- The content is scanned in front of what follows the block as it is scanned alone. -/
def Undisturbed (b : Block) (r : Text) : Prop :=
  b.kind = Lexeme.kind → Lexeme.Undisturbed b.content (b.closeTag ++ r)

theorem isWhole_startTag (b : Block) (hn : StartTag.IsName b.kind) (hs : b.attrs.Sound)
    (hq : b.attrs.Quotable) : b.startTag.IsWhole :=
  StartTag.isWhole_iff.2 ⟨⟨hn, Attrs.isInside_source hs hq, fun _ => Attrs.source_getLast? hs⟩,
    fun c hc => by rw [Attrs.source_head? c hc]; decide⟩

theorem source_eq (b : Block) (r : Text) :
    b.source ++ r =
      '<' :: (b.kind ++ (b.attrs.source ++ '>' :: (b.content ++ (b.closeTag ++ r)))) := by
  simp [source, closeTag, CloseTag.source]

end Block

namespace Piece

theorem next_block {b : Block} (hn : StartTag.IsName b.kind) (hs : b.attrs.Sound)
    (hq : b.attrs.Quotable) (r : Text) :
    next '<' (b.kind ++ (b.attrs.source ++ '>' :: r)) =
      match blockEnd? b.kind r with
      | none => .error (.unclosed b.kind)
      | some (content, gap, r) => .ok (.block b.startTag b.attrs content gap, r) := by
  obtain ⟨t, ht, hnext⟩ := next_of_read? (StartTag.read?_of_isWhole (b.isWhole_startTag hn hs hq) r)
  obtain rfl : b.kind ++ (b.attrs.source ++ '>' :: r) = t := by
    simpa [Block.startTag, StartTag.source, StartTag.inside] using ht
  rw [hnext, ofTag, Block.startTag, Attrs.read?_source hs hq]
  rfl

theorem yields_block_iff {taken : List Text} {b : Block} {r : Text} {bs : List Block}
    (hn : StartTag.IsName b.kind) (hs : b.attrs.Sound) (hq : b.attrs.Quotable) :
    Yields taken (b.source ++ r) bs ↔ (∀ k ∈ b.singleton?, k ∉ taken) ∧
      ∃ content gap t bs', blockEnd? b.kind (b.content ++ (b.closeTag ++ r)) =
        some (content, gap, t) ∧ bs = ⟨b.kind, content, b.attrs⟩ :: bs' ∧
        Yields (b.singleton?.toList ++ taken) t bs' := by
  have hnext := next_block hn hs hq (b.content ++ (b.closeTag ++ r))
  rw [Block.source_eq]
  cases he : blockEnd? b.kind (b.content ++ (b.closeTag ++ r)) with
  | none =>
    rw [he] at hnext
    constructor
    · intro h
      obtain ⟨_, hc, _⟩ := h
      cases hc with
      | step hn => rw [hnext] at hn; cases hn
    · intro h
      obtain ⟨_, _, _, _, _, e, _⟩ := h
      cases e
  | some e =>
    obtain ⟨content, gap, t⟩ := e
    rw [he] at hnext
    rw [yields_cons_iff hnext]
    constructor
    · intro h
      obtain ⟨hk, bs', rfl, hy⟩ := h
      exact ⟨hk, content, gap, t, bs', rfl, rfl, hy⟩
    · intro h
      obtain ⟨hk, _, _, _, bs', e, rfl, hy⟩ := h
      cases e
      exact ⟨hk, bs', rfl, hy⟩

theorem yields_undisturbed_iff {taken : List Text} {b : Block} {r : Text} {bs : List Block}
    (hs : b.Sound) (hq : b.attrs.Quotable) (hu : b.Undisturbed r) :
    Yields taken (b.source ++ r) bs ↔ (∀ k ∈ b.singleton?, k ∉ taken) ∧
      ∃ bs', bs = b :: bs' ∧ Yields (b.singleton?.toList ++ taken) r bs' := by
  have he : blockEnd? b.kind (b.content ++ (b.closeTag ++ r)) = some (b.content, [], r) :=
    (blockEnd?_eq_some_iff hs.name).2
      ⟨by simp [Block.closeTag], fun c hc => absurd hc List.not_mem_nil, hs.content, hu⟩
  rw [yields_block_iff hs.name hs.attrs hq]
  constructor
  · intro h
    obtain ⟨hk, _, _, _, bs', e, rfl, hy⟩ := h
    rw [he] at e
    cases e
    exact ⟨hk, bs', rfl, hy⟩
  · intro h
    obtain ⟨hk, bs', rfl, hy⟩ := h
    exact ⟨hk, _, _, _, bs', he, rfl, hy⟩

end Piece

namespace Block

/-- A block that can be written anywhere: its values need no other quotes, and its content ends at
its close tag whatever follows that. -/
structure WellFormed (b : Block) : Prop where
  name : StartTag.IsName b.kind
  attrs : b.attrs.Sound
  quotable : b.attrs.Quotable
  raw : b.kind ≠ Lexeme.kind → ¬ CloseTag.Within b.kind b.content
  template : b.kind = Lexeme.kind → Lexeme.SelfContained b.content

theorem WellFormed.sound {b : Block} (h : b.WellFormed) : b.Sound where
  name := h.name
  attrs := h.attrs
  content := by
    unfold Enclosed
    split
    · next hk => exact (h.template hk).1
    · next hk => exact h.raw hk

theorem WellFormed.undisturbed {b : Block} (h : b.WellFormed) (r : Text) : b.Undisturbed r :=
  fun hk => (h.template hk).2.undisturbed _

end Block

/-- Blocks in their order, each as it is written, and between them text without '<', stray '<' and
comments. -/
inductive LaidOut : List Block → Text → Prop where
  | done : LaidOut [] []
  | text {bs : List Block} {s t : Text} : '<' ∉ s → LaidOut bs t → LaidOut bs (s ++ t)
  | stray {bs : List Block} {t : Text} : ¬ Comment.opener <+: '<' :: t →
      (∀ c ∈ t.head?, Text.isLetter c = false) → LaidOut bs t → LaidOut bs ('<' :: t)
  | comment {bs : List Block} {body t : Text} : Comment.IsBody body → LaidOut bs t →
      LaidOut bs (Comment.source body ++ t)
  | block {b : Block} {bs : List Block} {t : Text} :
      LaidOut bs t → LaidOut (b :: bs) (b.source ++ t)

namespace LaidOut

open Piece

theorem yields {bs : List Block} {s : Text} (h : LaidOut bs s) (hw : ∀ b ∈ bs, b.WellFormed)
    {taken : List Text} (hn : (singletonKinds bs ++ taken).Nodup) : Yields taken s bs := by
  induction h generalizing taken with
  | done => exact yields_nil_iff.2 rfl
  | text hs _ ih => exact (yields_text_iff hs).2 (ih hw hn)
  | stray ho hl _ ih => exact (yields_stray_iff ho hl).2 (ih hw hn)
  | comment hb _ ih => exact (yields_comment_iff hb).2 (ih hw hn)
  | @block b bs t _ ih =>
    obtain ⟨hb, hbs⟩ := List.forall_mem_cons.1 hw
    have hperm : (singletonKinds (b :: bs) ++ taken).Perm
        (singletonKinds bs ++ (b.singleton?.toList ++ taken)) := by
      rw [singletonKinds_cons, List.append_assoc]
      exact List.perm_append_comm_assoc _ _ _
    have hn := hperm.nodup_iff.1 hn
    have hk : ∀ k ∈ b.singleton?, k ∉ taken :=
      (nodup_toList_append_iff.1 (List.nodup_append.1 hn).2.1).1
    exact (yields_undisturbed_iff hb.sound hb.quotable (hb.undisturbed t)).2
      ⟨hk, bs, rfl, ih hbs hn⟩

end LaidOut

namespace Piece

@[simp] theorem singletonKinds_deindented (bs : List Block) :
    singletonKinds (bs.map Block.deindented) = singletonKinds bs := by
  have hk : (bs.map Block.deindented).map Block.kind = bs.map Block.kind := by
    rw [List.map_map]
    exact List.map_congr_left fun b _ => b.kind_deindented
  rw [singletonKinds, hk, singletonKinds]

end Piece

namespace Component

theorem parse_eq_ok_iff_yields {s : Text} {deindent : Bool} {c : Component} :
    parse s deindent = .ok c ↔ ∃ bs, Piece.Yields [] s bs ∧
      ofBlocks (if deindent then bs.map Block.deindented else bs) = c := by
  rw [parse_eq_ok_iff]
  constructor
  · intro h
    obtain ⟨ps, hc, rfl⟩ := h
    exact ⟨_, ⟨ps, hc, rfl⟩, rfl⟩
  · intro h
    obtain ⟨_, ⟨ps, hc, rfl⟩, rfl⟩ := h
    exact ⟨ps, hc, rfl⟩

/-- What blocks are written as is read back as those blocks, whatever stands between them. -/
theorem parse_laidOut {bs : List Block} {s : Text} (h : LaidOut bs s)
    (hw : ∀ b ∈ bs, b.WellFormed)
    (hone : ∀ kind ∈ Piece.singletons, (bs.map Block.kind).count kind ≤ 1) (deindent : Bool) :
    ∃ c, parse s deindent = .ok c ∧
      c.Holds (if deindent then bs.map Block.deindented else bs) := by
  have hn := Piece.singletonKinds_nodup_iff.2 hone
  have hy : Piece.Yields [] s bs := h.yields hw (by simpa using hn)
  refine ⟨_, parse_eq_ok_iff_yields.2 ⟨bs, hy, rfl⟩, holds_ofBlocks ?_⟩
  split
  · rwa [Piece.singletonKinds_deindented]
  · exact hn

/-- A name with a quote in it, values with '>' and with a close tag, a comment and tags that never
end in raw text, and templates in comments and in templates. -/
theorem parse_laidOut_tangled :
    let x : Block := ⟨"x\"", "<!-- </x >", .ofList [("@k", .text "a>b'</x"), ("s", .present)]⟩
    let t : Block := ⟨"template", "<template a='>'/><!-- </template> --><template>\"</template>",
      .ofList [("lang", .text "pug/")]⟩
    let y : Block := ⟨"style", "*</styl", .ofList [("scoped", .present)]⟩
    let s : Text := ['1'] ++ '<' :: (['2'] ++ (Comment.source "->" ++ (x.source ++ (['\n'] ++
      (t.source ++ (y.source ++ []))))))
    ∃ c, parse s false = .ok c ∧ c.Holds [x, t, y] := by
  intro x t y s
  have wf : ∀ b ∈ [x, t, y], b.WellFormed := by
    intro b hb
    simp only [List.mem_cons, List.not_mem_nil, or_false] at hb
    rcases hb with rfl | rfl | rfl
    · exact ⟨by decide, by decide, by decide, by decide +kernel, by decide⟩
    · exact ⟨by decide, by decide, by decide, by decide, by decide +kernel⟩
    · exact ⟨by decide, by decide, by decide, by decide +kernel, by decide⟩
  have laid : LaidOut [x, t, y] s :=
    .text (by decide) (.stray (by decide) (by simp; decide +kernel) (.text (by decide)
      (.comment (by decide) (.block (.text (by decide) (.block (.block .done)))))))
  exact parse_laidOut laid wf (by decide) false

end Component

end SfcTheme

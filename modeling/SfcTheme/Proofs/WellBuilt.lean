import SfcTheme.Proofs.FirstFault
import SfcTheme.Proofs.FixedPoint

set_option autoImplicit false

namespace SfcTheme

/-- There is a kind of quote between which the value can be written. -/
def AttrValue.OneQuote : AttrValue → Prop
  | .present => True
  | .text s => '"' ∉ s ∨ '\x27' ∉ s

namespace AttributeList

theorem Value.Stands.oneQuote {v : Value} {r : Text} (h : v.Stands r) :
    '"' ∉ v.content ∨ '\x27' ∉ v.content := by
  cases v with
  | doubleQuoted s => exact .inl h
  | singleQuoted s => exact .inr h
  | bare s => exact .inl fun hm => absurd (h.2.1 _ hm) (by decide)

theorem Written.Stands.oneQuote {w : Written} {r : Text} (h : w.Stands r) :
    w.entry.2.OneQuote := by
  cases w with
  | bare name => exact trivial
  | assigned name before after value =>
    by_cases hc : value.content = []
    · simp [entry, hc, AttrValue.OneQuote]
    · simpa [entry, hc, AttrValue.OneQuote] using h.2.2.2.oneQuote

theorem oneQuote_of_read? {raw : Text} {as : Attrs} (h : read? raw = some as) :
    ∀ e ∈ as.entries, e.2.OneQuote :=
  forall_of_read? Written.Stands.oneQuote h

end AttributeList

theorem Piece.Fits.oneQuote {p : Piece} {r : Text} {b : Block} (h : p.Fits r)
    (hb : p.block? = some b) : ∀ e ∈ b.attrs.entries, e.2.OneQuote := by
  cases h with
  | text | stray | comment => cases hb
  | selfClosing _ _ ha => cases hb; exact AttributeList.oneQuote_of_read? ha
  | block _ _ ha _ _ _ => cases hb; exact AttributeList.oneQuote_of_read? ha

/-! Attributes as data, and the checks of the blocks that are put together from them. -/

def AttrValue.toDatum : AttrValue → Datum
  | .present => .bool true
  | .text s => .text s

@[simp] theorem AttrValue.ofDatum?_toDatum (v : AttrValue) : ofDatum? v.toDatum = some v := by
  cases v <;> rfl

namespace Attrs

def toData (as : Attrs) : OrderedMap Text Datum where
  entries := as.entries.map fun e => (e.1, e.2.toDatum)
  distinct := by simpa [Function.comp_def] using as.distinct

theorem check_toDatum (kind : Text) (es : List (Text × AttrValue)) :
    check kind (es.map fun e => (e.1, e.2.toDatum)) = .ok es := by
  induction es with
  | nil => rfl
  | cons e es ih => simp [check, ih, Except.map]

theorem ofData_toData (kind : Text) (as : Attrs) : ofData kind as.toData = .ok as := by
  rw [ofData, toData, check_toDatum]
  exact congrArg Except.ok (OrderedMap.ofList_entries as)

end Attrs

theorem Block.ofData_toData {b : Block} (h : b.kind ≠ []) :
    ofData b.kind b.content b.attrs.toData = .ok b := by
  rw [ofData, if_neg h, Attrs.ofData_toData]
  rfl

theorem Style.ofData_toData (s : Style) : ofData s.content s.attrs.toData = .ok s := by
  rw [ofData, Attrs.ofData_toData]
  rfl

namespace Component

/-- Put together again from data, every block passes the checks and is what it was. -/
structure Accepted (c : Component) : Prop where
  blocks : ∀ b ∈ c.template.toList ++ c.script.toList ++ c.customBlocks,
    Block.ofData b.kind b.content b.attrs.toData = .ok b
  styles : ∀ s ∈ c.styles, Style.ofData s.content s.attrs.toData = .ok s

structure WellBuilt (c : Component) : Prop extends c.InPlace where
  customNames : ∀ b ∈ c.customBlocks, StartTag.IsName b.kind
  attrs : ∀ b ∈ c.blocks, b.attrs.Sound
  values : ∀ b ∈ c.blocks, ∀ e ∈ b.attrs.entries, e.2.OneQuote
  distinct : ∀ b ∈ c.blocks, (b.attrs.entries.map Prod.fst).Nodup
  contents : ∀ b ∈ c.blocks, b.kind ≠ Lexeme.kind → ¬ CloseTag.Within b.kind b.content

theorem wellBuilt_of_parse {s : Text} {deindent : Bool} {c : Component}
    (h : parse s deindent = .ok c) : c.WellBuilt := by
  have hs : ∀ b ∈ c.blocks, b.Sound :=
    forall_blocks_of_parse Piece.Fits.sound Block.Sound.deindented h
  refine ⟨inPlace_of_parse h, fun b hb => ?_, fun b hb => (hs b hb).attrs, ?_,
    fun b _ => b.attrs.distinct, fun b hb hk => ?_⟩
  · exact (hs b (List.mem_append_left _ hb)).name
  · exact forall_blocks_of_parse (P := fun b => ∀ e ∈ b.attrs.entries, e.2.OneQuote)
      Piece.Fits.oneQuote (fun {b} hq => by rwa [Block.attrs_deindented]) h
  · have hc := (hs b hb).content
    rwa [Enclosed, if_neg hk] at hc

theorem WellBuilt.accepted {c : Component} (h : c.WellBuilt) : c.Accepted where
  blocks b hb := by
    refine Block.ofData_toData fun hk => ?_
    simp only [List.mem_append, Option.mem_toList] at hb
    rcases hb with (hb | hb) | hb
    · exact absurd (hk.symm.trans (h.template b hb)) (by decide)
    · exact absurd (hk.symm.trans (h.script b hb)) (by decide)
    · have hn := h.customNames b hb
      rw [hk] at hn
      exact hn
  styles s _ := s.ofData_toData

theorem WellBuilt.themed {c : Component} (h : c.WellBuilt) (theme : Option Text) :
    (c.themed theme).WellBuilt where
  toInPlace := ⟨h.template, h.script, h.customBlocks⟩
  customNames := h.customNames
  attrs := forall_blocks_themed (P := fun b => b.attrs.Sound)
    (fun _ f hs e he => hs e (Style.mem_of_mem_emitted (f := f) he)) h.attrs theme
  values := forall_blocks_themed (P := fun b => ∀ e ∈ b.attrs.entries, e.2.OneQuote)
    (fun _ f hs e he => hs e (Style.mem_of_mem_emitted (f := f) he)) h.values theme
  distinct b _ := b.attrs.distinct
  contents := forall_blocks_themed
    (P := fun b => b.kind ≠ Lexeme.kind → ¬ CloseTag.Within b.kind b.content)
    (fun _ f hs hk => not_within_emitted (hs hk) f) h.contents theme

/-- A source has a well-built component or a fault, and the blocks before a fault are accepted too.
A theme keeps a component well built. -/
theorem wellBuilt_parse_themed :
    (∀ (source : Text) (deindent : Bool),
      (∃ c, parse source deindent = .ok c ∧ c.WellBuilt ∧ c.Accepted) ∨
        ∃ f c, read source deindent = .error f ∧
          parse (source.take f.offset) deindent = .ok c ∧ c.Accepted) ∧
      ∀ (c : Component) (theme : Option Text), c.WellBuilt →
        (c.themed theme).WellBuilt ∧ (c.themed theme).Accepted := by
  refine ⟨fun source deindent => ?_, fun c theme h => ⟨h.themed theme, (h.themed theme).accepted⟩⟩
  cases hr : read source deindent with
  | ok c =>
    have hp : parse source deindent = .ok c := by rw [parse, hr]; rfl
    have hw := wellBuilt_of_parse hp
    exact .inl ⟨c, hp, hw, hw.accepted⟩
  | error f =>
    obtain ⟨_, c, hp, _⟩ := located_of_read_error hr
    exact .inr ⟨f, c, rfl, hp, (wellBuilt_of_parse hp).accepted⟩

/-- Values in either kind of quote and in none, a margin, a block of every kind, and a fault behind a
block that is accepted. -/
theorem wellBuilt_parse_themed_quotes :
    let source : Text := "<style media='a\"b' theme=d>\n  p\n</style >" ++
      "<script lang=ts setup=\"\"/><docs src=\"it's\"><docs></docs>" ++
      "<template>\n  <template/>\n</template><style theme='l'>\n  q</style>"
    let faulty : Text := "<docs>\n  x</docs><style>"
    let c : Component := ⟨some ⟨"template", "\n  <template/>\n", .empty⟩,
      some ⟨"script", [], .ofList [("lang", .text "ts"), ("setup", .present)]⟩,
      [⟨"\np\n", .ofList [("media", .text "a\"b"), ("theme", .text ['d'])]⟩,
        ⟨"\nq", .ofList [("theme", .text ['l'])]⟩],
      [⟨"docs", "<docs>", .ofList [("src", .text "it's")]⟩]⟩
    parse source true = .ok c ∧ c.Accepted ∧
      (c.themed (some ['d'])).WellBuilt ∧ (c.themed (some ['d'])).Accepted ∧
      ∃ f b, read faulty true = .error f ∧ parse (faulty.take f.offset) true = .ok b ∧
        b.Accepted := by
  intro source faulty c
  obtain ⟨every, keeps⟩ := wellBuilt_parse_themed
  have hp : parse source true = .ok c := by decide +kernel
  have he : parse faulty true = .error ⟨"Unclosed <style> block", some 2, some 11⟩ := by
    decide +kernel
  have hw : c.WellBuilt ∧ c.Accepted := by
    obtain ⟨c', hc, hw⟩ | ⟨f, _, hf, _⟩ := every source true
    · rw [hp] at hc
      cases hc
      exact hw
    · rw [parse, hf] at hp
      cases hp
  obtain ⟨ht, ha⟩ := keeps c (some ['d']) hw.1
  obtain ⟨c', hc, _⟩ | hf := every faulty true
  · rw [he] at hc
    cases hc
  · exact ⟨hp, hw.2, ht, ha, hf⟩

end Component

end SfcTheme

import SfcTheme.Markup.Writer
import SfcTheme.Proofs.AttributeGrammar
import SfcTheme.Proofs.StartTag

set_option autoImplicit false

namespace SfcTheme

namespace AttributeList

theorem forall_of_read? {P : Text × AttrValue → Prop}
    (hP : ∀ {w : Written} {r : Text}, w.Stands r → P w.entry) {raw : Text} {as : Attrs}
    (h : read? raw = some as) : ∀ e ∈ as.entries, P e := by
  obtain ⟨p, hp, rfl⟩ : ∃ p : Spelling, p.Valid ∧ p.source = raw := by
    by_contra hn
    rw [read?_eq_none_iff.2 hn] at h
    cases h
  rw [hp.read?] at h
  cases h
  intro e he
  obtain ⟨w, hw, rfl⟩ := List.mem_map.1 (OrderedMap.mem_of_mem_ofList he)
  obtain ⟨r, hr⟩ := hp.stands w hw
  exact hP hr

theorem Written.entry_ne_empty (w : Written) : w.entry.2 ≠ .text [] := by
  cases w with
  | bare name => simp [entry]
  | assigned name before after value =>
    by_cases h : value.content = [] <;> simp [entry, h]

end AttributeList

/-- No double quote ends the text that is written between two of them. -/
def AttrValue.Quotable : AttrValue → Prop
  | .present => True
  | .text s => '"' ∉ s

instance : DecidablePred AttrValue.Quotable
  | .present => inferInstanceAs (Decidable True)
  | .text s => inferInstanceAs (Decidable ('"' ∉ s))

namespace Attrs

/-- A name is a name, and an empty text would be no text. -/
def Sound (as : Attrs) : Prop :=
  ∀ e ∈ as.entries, AttributeList.IsName e.1 ∧ e.2 ≠ .text []

def Quotable (as : Attrs) : Prop := ∀ e ∈ as.entries, e.2.Quotable

instance : DecidablePred Sound := fun as => inferInstanceAs
  (Decidable (∀ e ∈ as.entries, AttributeList.IsName e.1 ∧ e.2 ≠ .text []))

instance : DecidablePred Quotable := fun as =>
  inferInstanceAs (Decidable (∀ e ∈ as.entries, e.2.Quotable))

theorem source_head? {es : List (Text × AttrValue)} :
    ∀ c ∈ (es.flatMap Attribute.source).head?, c = ' ' := by
  match es with
  | [] => simp
  | (n, .present) :: es => simp [Attribute.source]
  | (n, .text s) :: es => simp [Attribute.source]

def spelling : List (Text × AttrValue) → AttributeList.Spelling
  | [] => .done []
  | (name, .present) :: es => .item [' '] (.bare name) (spelling es)
  | (name, .text s) :: es => .item [' '] (.assigned name [] [] (.doubleQuoted s)) (spelling es)

theorem source_spelling (es : List (Text × AttrValue)) :
    (spelling es).source = es.flatMap Attribute.source := by
  fun_induction spelling es with
  | case1 => rfl
  | case2 name es ih =>
    simp [AttributeList.Spelling.source, AttributeList.Written.source, Attribute.source, ih]
  | case3 name s es ih =>
    simp [AttributeList.Spelling.source, AttributeList.Written.source, AttributeList.Value.source,
      Attribute.source, ih]

theorem valid_spelling {es : List (Text × AttrValue)}
    (h : ∀ e ∈ es, AttributeList.IsName e.1 ∧ e.2.Quotable) : (spelling es).Valid := by
  have hblank : AttributeList.IsGap [' '] := by decide
  fun_induction spelling es with
  | case1 => exact List.forall_mem_nil _
  | case2 name es ih =>
    obtain ⟨⟨hn, -⟩, hes⟩ := List.forall_mem_cons.1 h
    refine ⟨hblank, ⟨hn, ?_, fun gap t hg => (ih hes).source_ne hg t⟩, ih hes⟩
    rw [source_spelling]
    exact fun c hc => by rw [source_head? c hc]; decide
  | case3 name s es ih =>
    obtain ⟨⟨hn, hq⟩, hes⟩ := List.forall_mem_cons.1 h
    exact ⟨hblank, ⟨hn, List.forall_mem_nil _, List.forall_mem_nil _, hq⟩, ih hes⟩

theorem entries_spelling {es : List (Text × AttrValue)} (h : ∀ e ∈ es, e.2 ≠ .text []) :
    (spelling es).items.map AttributeList.Written.entry = es := by
  fun_induction spelling es with
  | case1 => rfl
  | case2 name es ih =>
    exact congrArg ((name, AttrValue.present) :: ·) (ih (List.forall_mem_cons.1 h).2)
  | case3 name s es ih =>
    obtain ⟨hs, hes⟩ := List.forall_mem_cons.1 h
    have hne : s ≠ [] := fun e => hs (by rw [e])
    simp [AttributeList.Spelling.items, AttributeList.Written.entry, AttributeList.Value.content,
      hne, ih hes]

/-- Attributes that are written down are read back, order included. -/
theorem read?_source {as : Attrs} (hs : as.Sound) (hq : as.Quotable) :
    AttributeList.read? as.source = some as := by
  have hv : (spelling as.entries).Valid := valid_spelling fun e he => ⟨(hs e he).1, hq e he⟩
  rw [source, ← source_spelling, hv.read?, entries_spelling fun e he => (hs e he).2,
    OrderedMap.ofList_entries]

theorem isInside_attribute {e : Text × AttrValue} (hn : AttributeList.IsName e.1)
    (hq : e.2.Quotable) : StartTag.IsInside none (Attribute.source e) := by
  obtain ⟨n, v⟩ := e
  have hname : StartTag.IsInside none (' ' :: n) := by
    refine .plain (by decide) (by decide) (StartTag.isInside_of_forall fun c hc => ?_)
    have := hn.2 c hc
    simp_all [AttributeList.isNameChar, isQuote]
  cases v with
  | present => exact hname
  | text s =>
    have hv : StartTag.IsInside none ('=' :: '"' :: (s ++ ['"'])) :=
      .plain (by decide) (by decide) (.opens (by decide) (StartTag.isInside_quoted hq))
    simpa [Attribute.source] using hname.append hv

theorem isInside_source {as : Attrs} (hs : as.Sound) (hq : as.Quotable) :
    StartTag.IsInside none as.source := by
  have key : ∀ es : List (Text × AttrValue),
      (∀ e ∈ es, AttributeList.IsName e.1 ∧ e.2.Quotable) →
      StartTag.IsInside none (es.flatMap Attribute.source) := by
    intro es h
    induction es with
    | nil => exact .done
    | cons e es ih =>
      obtain ⟨⟨hn, hv⟩, hes⟩ := List.forall_mem_cons.1 h
      exact (isInside_attribute hn hv).append (ih hes)
  exact key as.entries fun e he => ⟨(hs e he).1, hq e he⟩

theorem attribute_getLast? {e : Text × AttrValue} (hn : AttributeList.IsName e.1) :
    (Attribute.source e).getLast? ≠ some '/' := by
  obtain ⟨n, v⟩ := e
  cases v with
  | present =>
    intro h
    rw [Attribute.source, List.getLast?_cons_of_ne_nil hn.1] at h
    exact absurd (hn.2 _ (List.mem_of_getLast? h)) (by decide)
  | text s =>
    rw [Attribute.source, List.getLast?_append]
    simp

theorem source_getLast? {as : Attrs} (hs : as.Sound) : as.source.getLast? ≠ some '/' := by
  have key : ∀ es : List (Text × AttrValue), (∀ e ∈ es, AttributeList.IsName e.1) →
      (es.flatMap Attribute.source).getLast? ≠ some '/' := by
    intro es h
    induction es with
    | nil => simp
    | cons e es ih =>
      obtain ⟨hn, hes⟩ := List.forall_mem_cons.1 h
      rw [List.flatMap_cons, List.getLast?_append]
      cases hl : (es.flatMap Attribute.source).getLast? with
      | none => simpa using attribute_getLast? hn
      | some c => simpa [hl] using ih hes
  exact key as.entries fun e he => (hs e he).1

theorem sound_of_read? {raw : Text} {as : Attrs} (h : AttributeList.read? raw = some as) :
    as.Sound := by
  refine AttributeList.forall_of_read? (fun {w _} hw => ?_) h
  refine ⟨?_, w.entry_ne_empty⟩
  rw [w.entry_eq]
  exact hw.isName

end Attrs

end SfcTheme

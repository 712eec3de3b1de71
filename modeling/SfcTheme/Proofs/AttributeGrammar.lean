import SfcTheme.Markup.Reader
import SfcTheme.Proofs.OrderedMap

/-!
The grammar of attribute lists. A list is items with gaps between them, and a name or a bare value
goes on as far as it can, so a text is written in one way as such a list or in none. What the reader
takes are the texts that are.
-/

set_option autoImplicit false

namespace SfcTheme

theorem Text.takeWhile_dropWhile_append {p : Char → Bool} {s r : Text} (hs : ∀ c ∈ s, p c = true)
    (hr : ∀ c ∈ r.head?, p c = false) :
    (s ++ r).takeWhile p = s ∧ (s ++ r).dropWhile p = r := by
  have h : r.takeWhile p = [] ∧ r.dropWhile p = r := by
    cases r with
    | nil => exact ⟨rfl, rfl⟩
    | cons c r => simp [hr c rfl]
  rw [List.takeWhile_append_of_pos hs, List.dropWhile_append_of_pos hs, h.1, h.2, List.append_nil]
  exact ⟨rfl, rfl⟩

namespace AttributeList

def IsName (name : Text) : Prop := name ≠ [] ∧ ∀ c ∈ name, isNameChar c = true

instance : DecidablePred IsName := fun name =>
  decidable_of_iff ((!name.isEmpty && name.all isNameChar) = true) (by simp [IsName])

def IsGap (gap : Text) : Prop := ∀ c ∈ gap, isGap c = true

instance : DecidablePred IsGap := fun gap =>
  decidable_of_iff (gap.all isGap = true) List.all_eq_true

theorem isBlank_of_isGap {c : Char} (h : isGap c = true) : Text.isBlank c = true := by
  simp only [isGap, Bool.or_eq_true, beq_iff_eq] at h
  rcases h with (((rfl | rfl) | rfl) | rfl) | rfl <;> decide

theorem not_isNameChar_of_isGap {c : Char} (h : isGap c = true) : isNameChar c = false := by
  simp [isNameChar, isBlank_of_isGap h]

theorem not_isGap_of_isNameChar {c : Char} (h : isNameChar c = true) : isGap c = false := by
  rw [← Bool.not_eq_true]
  intro hg
  rw [not_isNameChar_of_isGap hg] at h
  cases h

theorem not_isGap_of_isBareChar {c : Char} (h : isBareChar c = true) : isGap c = false := by
  rw [← Bool.not_eq_true]
  intro hg
  simp [isBareChar, isBlank_of_isGap hg] at h

theorem untilQuote_append {q : Char} {v : Text} (hv : q ∉ v) (r : Text) :
    untilQuote q (v ++ q :: r) = some (v, r) := by
  induction v with
  | nil => simp [untilQuote]
  | cons c v ih =>
    rw [List.mem_cons, not_or] at hv
    simp [untilQuote, Ne.symm hv.1, ih hv.2]

theorem untilQuote_eq_some_iff {q : Char} {s v r : Text} :
    untilQuote q s = some (v, r) ↔ s = v ++ q :: r ∧ q ∉ v := by
  constructor
  · intro h
    induction s generalizing v with
    | nil => cases h
    | cons c s ih =>
      rw [untilQuote] at h
      split at h
      · next hc => cases h; simp [hc]
      · next hc =>
        obtain ⟨⟨w, t⟩, hw, e⟩ := Option.map_eq_some_iff.1 h
        cases e
        obtain ⟨rfl, hq⟩ := ih hw
        exact ⟨rfl, by simp [hq, Ne.symm hc]⟩
  · rintro ⟨rfl, hq⟩
    exact untilQuote_append hq r

theorem head?_dropWhile {p : Char → Bool} {s : Text} :
    ∀ c ∈ (s.dropWhile p).head?, p c = false := by
  intro c hc
  have h := List.head?_dropWhile_not p s
  rw [Option.mem_def.1 hc] at h
  simpa using h

namespace Value

def source : Value → Text
  | .doubleQuoted s => '"' :: (s ++ ['"'])
  | .singleQuoted s => '\x27' :: (s ++ ['\x27'])
  | .bare s => s

/-- What a value is in front of the text `r`. A bare one goes on as far as it can. -/
def Stands (r : Text) : Value → Prop
  | .doubleQuoted s => '"' ∉ s
  | .singleQuoted s => '\x27' ∉ s
  | .bare s => s ≠ [] ∧ (∀ c ∈ s, isBareChar c = true) ∧ ∀ c ∈ r.head?, isBareChar c = false

instance (r : Text) : DecidablePred (Stands r)
  | .doubleQuoted s => inferInstanceAs (Decidable ('"' ∉ s))
  | .singleQuoted s => inferInstanceAs (Decidable ('\x27' ∉ s))
  | .bare s => decidable_of_iff
    ((!s.isEmpty && s.all isBareChar && r.head?.all fun c => !isBareChar c) = true)
    (by simp [Stands, and_assoc, Option.all_eq_true])

theorem read?_eq_some_iff {s r : Text} {v : Value} :
    read? s = some (v, r) ↔ s = v.source ++ r ∧ v.Stands r := by
  constructor
  · intro h
    cases s with
    | nil => cases h
    | cons c s =>
      rw [read?] at h
      split at h
      · next hc =>
        obtain ⟨⟨w, t⟩, hw, e⟩ := Option.map_eq_some_iff.1 h
        cases e
        obtain ⟨rfl, hq⟩ := untilQuote_eq_some_iff.1 hw
        exact ⟨by simp [source, hc], hq⟩
      · split at h
        · next hc =>
          obtain ⟨⟨w, t⟩, hw, e⟩ := Option.map_eq_some_iff.1 h
          cases e
          obtain ⟨rfl, hq⟩ := untilQuote_eq_some_iff.1 hw
          exact ⟨by simp [source, hc], hq⟩
        · split at h
          · next hc =>
            cases h
            refine ⟨List.takeWhile_append_dropWhile.symm, ?_, ?_, head?_dropWhile⟩
            · simp [List.takeWhile_cons_of_pos hc]
            · exact List.all_eq_true.1 List.all_takeWhile
          · cases h
  · rintro ⟨rfl, h⟩
    cases v with
    | doubleQuoted s => simp [read?, source, untilQuote_append h]
    | singleQuoted s => simp [read?, source, untilQuote_append h]
    | bare s =>
      obtain ⟨hne, hs, hr⟩ := h
      obtain ⟨c, s, rfl⟩ := List.exists_cons_of_ne_nil hne
      have hc : isBareChar c = true := hs c List.mem_cons_self
      have hd : c ≠ '"' := fun e => absurd hc (by rw [e]; decide)
      have hq : c ≠ '\x27' := fun e => absurd hc (by rw [e]; decide)
      obtain ⟨ht, hd'⟩ := Text.takeWhile_dropWhile_append hs hr
      rw [source, List.cons_append, read?, if_neg hd, if_neg hq, if_pos hc, ← List.cons_append, ht,
        hd']

theorem Stands.head?_source {v : Value} {r : Text} (h : v.Stands r) :
    ∀ c ∈ (v.source ++ r).head?, isGap c = false := by
  cases v with
  | doubleQuoted s => simp [source, isGap]
  | singleQuoted s => simp [source, isGap]
  | bare s =>
    obtain ⟨hne, hs, _⟩ := h
    obtain ⟨d, s, rfl⟩ := List.exists_cons_of_ne_nil hne
    have hd := not_isGap_of_isBareChar (hs d List.mem_cons_self)
    simpa [source] using hd

end Value

theorem skipGap_append {gap r : Text} (hg : IsGap gap) (hr : ∀ c ∈ r.head?, isGap c = false) :
    skipGap (gap ++ r) = r :=
  (Text.takeWhile_dropWhile_append hg hr).2

theorem exists_gap (s : Text) : ∃ gap, IsGap gap ∧ s = gap ++ skipGap s :=
  ⟨s.takeWhile isGap, List.all_eq_true.1 List.all_takeWhile, List.takeWhile_append_dropWhile.symm⟩

theorem skipGap_ne_iff {r : Text} :
    (skipGap r).head? ≠ some '=' ↔ ∀ gap t, IsGap gap → r ≠ gap ++ '=' :: t := by
  constructor
  · rintro h gap t hg rfl
    exact h (by rw [skipGap_append hg (by simp [isGap])]; rfl)
  · intro h e
    obtain ⟨t, ht⟩ := List.head?_eq_some_iff.1 e
    obtain ⟨gap, hg, hr⟩ := exists_gap r
    exact h gap t hg (ht ▸ hr)

inductive Written where
  | bare (name : Text)
  | assigned (name before after : Text) (value : Value)

namespace Written

def source : Written → Text
  | .bare name => name
  | .assigned name before after value => name ++ (before ++ '=' :: (after ++ value.source))

def item : Written → Item
  | .bare name => ⟨name, none⟩
  | .assigned name _ _ value => ⟨name, some value⟩

def entry : Written → Text × AttrValue
  | .bare name => (name, .present)
  | .assigned name _ _ value =>
    (name, if value.content = [] then .present else .text value.content)

/-- What an item is in front of the text `r`. A name alone goes on as far as it can, and no gap and
equals sign follow it. -/
def Stands (r : Text) : Written → Prop
  | .bare name => IsName name ∧ (∀ c ∈ r.head?, isNameChar c = false) ∧
    ∀ gap t, IsGap gap → r ≠ gap ++ '=' :: t
  | .assigned name before after value =>
    IsName name ∧ IsGap before ∧ IsGap after ∧ value.Stands r

instance (r : Text) : DecidablePred (Stands r)
  | .bare name => decidable_of_iff
    (IsName name ∧ (r.head?.all fun c => !isNameChar c) = true ∧ (skipGap r).head? ≠ some '=')
    (by simp [Stands, skipGap_ne_iff, Option.all_eq_true])
  | .assigned name before after value => inferInstanceAs
    (Decidable (IsName name ∧ IsGap before ∧ IsGap after ∧ value.Stands r))

theorem Stands.isName {r : Text} {i : Written} (h : i.Stands r) : IsName i.item.name := by
  cases i with
  | bare name => exact h.1
  | assigned name before after value => exact h.1

theorem entry_eq (i : Written) : i.entry = (i.item.name, i.item.value?) := by
  cases i with
  | bare name => rfl
  | assigned name before after value =>
    simp only [entry, item, Item.value?, Option.map_some]
    cases value.content <;> simp

end Written

namespace Item

theorem exists_cons_of_isName {name rest : Text} (hn : IsName name)
    (hr : ∀ c ∈ rest.head?, isNameChar c = false) :
    ∃ c s, name ++ rest = c :: s ∧ isNameChar c = true ∧
      (c :: s).takeWhile isNameChar = name ∧ (c :: s).dropWhile isNameChar = rest := by
  obtain ⟨c, n, rfl⟩ := List.exists_cons_of_ne_nil hn.1
  exact ⟨c, n ++ rest, rfl, hn.2 c List.mem_cons_self, Text.takeWhile_dropWhile_append hn.2 hr⟩

theorem read?_of_equals {name rest t : Text} (hn : IsName name)
    (hr : ∀ c ∈ rest.head?, isNameChar c = false) (h : skipGap rest = '=' :: t) :
    Item.read? (name ++ rest) =
      (Value.read? (skipGap t)).map fun v => (⟨name, some v.1⟩, v.2) := by
  obtain ⟨c, s, e, hc, ht, hd⟩ := exists_cons_of_isName hn hr
  simp only [e, Item.read?, hc, if_true, ht, hd, h]

theorem read?_of_no_equals {name rest : Text} (hn : IsName name)
    (hr : ∀ c ∈ rest.head?, isNameChar c = false) (h : (skipGap rest).head? ≠ some '=') :
    Item.read? (name ++ rest) = some (⟨name, none⟩, rest) := by
  obtain ⟨c, s, e, hc, ht, hd⟩ := exists_cons_of_isName hn hr
  simp only [e, Item.read?, hc, if_true, ht, hd]
  split
  · next he => rw [he] at h; exact absurd rfl h
  · rfl

theorem exists_written {s r : Text} {i : Item} (h : Item.read? s = some (i, r)) :
    ∃ w : Written, w.item = i ∧ s = w.source ++ r ∧ w.Stands r := by
  obtain ⟨name, rest, rfl, hn, hr⟩ : ∃ name rest, s = name ++ rest ∧ IsName name ∧
      ∀ c ∈ rest.head?, isNameChar c = false := by
    cases s with
    | nil => cases h
    | cons c s =>
      simp only [Item.read?] at h
      split at h
      · next hc =>
        exact ⟨_, _, List.takeWhile_append_dropWhile.symm,
          ⟨by simp [List.takeWhile_cons_of_pos hc], List.all_eq_true.1 List.all_takeWhile⟩,
          head?_dropWhile⟩
      · cases h
  by_cases he : (skipGap rest).head? = some '='
  · obtain ⟨t, ht⟩ := List.head?_eq_some_iff.1 he
    rw [read?_of_equals hn hr ht] at h
    obtain ⟨⟨v, u⟩, hv, e⟩ := Option.map_eq_some_iff.1 h
    cases e
    obtain ⟨before, hb, hrest⟩ := exists_gap rest
    obtain ⟨after, ha, htail⟩ := exists_gap t
    obtain ⟨e, hv⟩ := Value.read?_eq_some_iff.1 hv
    refine ⟨.assigned name before after v, rfl, ?_, hn, hb, ha, hv⟩
    rw [hrest, ht, htail, e]
    simp [Written.source]
  · rw [read?_of_no_equals hn hr he] at h
    cases h
    exact ⟨.bare name, rfl, rfl, hn, hr, skipGap_ne_iff.1 he⟩

theorem read?_of_stands {w : Written} {r : Text} (h : w.Stands r) :
    Item.read? (w.source ++ r) = some (w.item, r) := by
  cases w with
  | bare name =>
    obtain ⟨hn, hr, he⟩ := h
    exact read?_of_no_equals hn hr (skipGap_ne_iff.2 he)
  | assigned name before after value =>
    obtain ⟨hn, hb, ha, hv⟩ := h
    have hsource : (Written.assigned name before after value).source ++ r =
        name ++ (before ++ '=' :: (after ++ (value.source ++ r))) := by
      simp [Written.source]
    have hname : ∀ c ∈ (before ++ '=' :: (after ++ (value.source ++ r))).head?,
        isNameChar c = false := by
      cases before with
      | nil => simp [isNameChar]
      | cons d before =>
        have hd := not_isNameChar_of_isGap (hb d List.mem_cons_self)
        simpa using hd
    have hskip : skipGap (before ++ '=' :: (after ++ (value.source ++ r))) =
        '=' :: (after ++ (value.source ++ r)) := skipGap_append hb (by simp [isGap])
    have hvalue : Value.read? (value.source ++ r) = some (value, r) :=
      Value.read?_eq_some_iff.2 ⟨rfl, hv⟩
    rw [hsource, read?_of_equals hn hname hskip, skipGap_append ha hv.head?_source, hvalue]
    rfl

end Item

/-- A way to write an attribute list: items, each behind its gap, and the gap at the end. -/
inductive Spelling where
  | done (gap : Text)
  | item (gap : Text) (i : Written) (rest : Spelling)

namespace Spelling

def source : Spelling → Text
  | .done gap => gap
  | .item gap i rest => gap ++ (i.source ++ rest.source)

def items : Spelling → List Written
  | .done _ => []
  | .item _ i rest => i :: rest.items

def Valid : Spelling → Prop
  | .done gap => IsGap gap
  | .item gap i rest => IsGap gap ∧ i.Stands rest.source ∧ rest.Valid

def decidableValid : (p : Spelling) → Decidable p.Valid
  | .done gap => inferInstanceAs (Decidable (IsGap gap))
  | .item gap i rest =>
    have := decidableValid rest
    inferInstanceAs (Decidable (IsGap gap ∧ i.Stands rest.source ∧ rest.Valid))

instance : DecidablePred Valid := decidableValid

end Spelling

theorem items?_of_skipGap_nil {s : Text} (h : skipGap s = []) : items? s = some [] := by
  rw [items?]
  split
  · rfl
  · next h' => rw [h] at h'; cases h'

theorem items?_of_read? {s r : Text} {i : Item} (h : Item.read? (skipGap s) = some (i, r)) :
    items? s = (items? r).map (i :: ·) := by
  rw [items?]
  split
  · next h' => rw [h'] at h; cases h
  · next c t h' =>
    rw [h'] at h
    split
    · next h'' => rw [h] at h''; cases h''
    · next h'' => rw [h] at h''; cases h''; rfl

namespace Spelling

theorem exists_head_of_stands {i : Written} {r : Text} (h : i.Stands r) :
    ∃ c t, i.source ++ r = c :: t ∧ isNameChar c = true := by
  obtain ⟨c, n, hn⟩ := List.exists_cons_of_ne_nil h.isName.1
  have hc : isNameChar c = true := h.isName.2 c (by simp [hn])
  cases i with
  | bare name =>
    obtain rfl : name = c :: n := hn
    exact ⟨c, n ++ r, rfl, hc⟩
  | assigned name before after value =>
    obtain rfl : name = c :: n := hn
    exact ⟨c, _, rfl, hc⟩

theorem head?_source_of_stands {i : Written} {r : Text} (h : i.Stands r) :
    ∀ c ∈ (i.source ++ r).head?, isGap c = false := by
  obtain ⟨d, t, e, hd⟩ := exists_head_of_stands h
  simp [e, not_isGap_of_isNameChar hd]

theorem Valid.items? {p : Spelling} (h : p.Valid) :
    items? p.source = some (p.items.map Written.item) := by
  induction p with
  | done gap =>
    refine items?_of_skipGap_nil ?_
    have hs := skipGap_append (r := []) h (by simp)
    rwa [List.append_nil] at hs
  | item gap i rest ih =>
    obtain ⟨hg, hi, hr⟩ := h
    have hs : skipGap (gap ++ (i.source ++ rest.source)) = i.source ++ rest.source :=
      skipGap_append hg (head?_source_of_stands hi)
    rw [source, items?_of_read? (hs ▸ Item.read?_of_stands hi), ih hr]
    rfl

theorem exists_of_items? {s : Text} {is : List Item} (h : AttributeList.items? s = some is) :
    ∃ p : Spelling, p.Valid ∧ p.source = s ∧ p.items.map Written.item = is := by
  fun_induction AttributeList.items? s generalizing is with
  | case1 s hs =>
    cases h
    obtain ⟨gap, hg, e⟩ := exists_gap s
    rw [hs, List.append_nil] at e
    exact ⟨.done gap, hg, e.symm, rfl⟩
  | case2 => cases h
  | case3 s c t hs i r hi _ ih =>
    obtain ⟨is, his, rfl⟩ := Option.map_eq_some_iff.1 h
    obtain ⟨p, hp, rfl, rfl⟩ := ih his
    obtain ⟨gap, hg, e⟩ := exists_gap s
    obtain ⟨w, rfl, ht, hw⟩ := Item.exists_written hi
    exact ⟨.item gap w p, ⟨hg, hw, hp⟩, by rw [e, hs, ht]; rfl, rfl⟩

theorem gap_append_inj {g h r t : Text} (hg : IsGap g) (hh : IsGap h)
    (hr : ∀ c ∈ r.head?, isGap c = false) (ht : ∀ c ∈ t.head?, isGap c = false)
    (e : g ++ r = h ++ t) : g = h ∧ r = t := by
  obtain ⟨hg', hr'⟩ := Text.takeWhile_dropWhile_append hg hr
  obtain ⟨hh', ht'⟩ := Text.takeWhile_dropWhile_append hh ht
  rw [e] at hg' hr'
  exact ⟨hg'.symm.trans hh', hr'.symm.trans ht'⟩

theorem written_inj {i j : Written} {r t : Text} (hi : i.Stands r) (hj : j.Stands t)
    (e : i.source ++ r = j.source ++ t) : i = j ∧ r = t := by
  have hread := Item.read?_of_stands hi
  rw [e, Item.read?_of_stands hj] at hread
  obtain ⟨hitem, rfl⟩ := Prod.mk.inj (Option.some.inj hread)
  refine ⟨?_, rfl⟩
  have hsource : i.source = j.source := List.append_cancel_right e
  cases i with
  | bare name =>
    cases j with
    | bare name' => exact congrArg Written.bare hsource
    | assigned => cases hitem
  | assigned name before after value =>
    cases j with
    | bare => cases hitem
    | assigned name' before' after' value' =>
      obtain ⟨rfl, rfl⟩ : name' = name ∧ value' = value := by simpa [Written.item] using hitem
      obtain ⟨_, hb, ha, _⟩ := hi
      obtain ⟨_, hb', ha', _⟩ := hj
      have hs := List.append_cancel_left hsource
      obtain ⟨rfl, htail⟩ := gap_append_inj hb hb' (by simp [isGap]) (by simp [isGap]) hs
      rw [List.append_cancel_right (List.cons.inj htail).2]

theorem gap_ne_item {g h r : Text} {i : Written} (hg : IsGap g) (hh : IsGap h) (hi : i.Stands r) :
    g ≠ h ++ (i.source ++ r) := by
  intro e
  rw [← List.append_nil g] at e
  obtain ⟨-, hnil⟩ := gap_append_inj hg hh (by simp) (head?_source_of_stands hi) e
  obtain ⟨c, t, ht, -⟩ := exists_head_of_stands hi
  rw [ht] at hnil
  cases hnil

theorem Valid.unique {p q : Spelling} (hp : p.Valid) (hq : q.Valid) (e : p.source = q.source) :
    p = q := by
  induction p generalizing q with
  | done gap =>
    cases q with
    | done gap' => exact congrArg Spelling.done e
    | item gap' j rest' => exact absurd e (gap_ne_item hp hq.1 hq.2.1)
  | item gap i rest ih =>
    cases q with
    | done gap' => exact absurd e.symm (gap_ne_item hq hp.1 hp.2.1)
    | item gap' j rest' =>
      obtain ⟨rfl, hitems⟩ := gap_append_inj hp.1 hq.1 (head?_source_of_stands hp.2.1)
        (head?_source_of_stands hq.2.1) e
      obtain ⟨rfl, hrest⟩ := written_inj hp.2.1 hq.2.1 hitems
      rw [ih hp.2.2 hq.2.2 hrest]

theorem Valid.source_ne {p : Spelling} (hp : p.Valid) {gap : Text} (hg : IsGap gap) (t : Text) :
    p.source ≠ gap ++ '=' :: t := by
  intro e
  cases p with
  | done gap' =>
    have h : isGap '=' = true := hp '=' (by rw [show gap' = _ from e]; simp)
    cases h
  | item gap' i rest =>
    obtain ⟨-, h⟩ := gap_append_inj hp.1 hg (head?_source_of_stands hp.2.1) (by simp [isGap]) e
    obtain ⟨c, u, hu, hc⟩ := exists_head_of_stands hp.2.1
    rw [hu] at h
    rw [(List.cons.inj h).1] at hc
    cases hc

theorem Valid.stands {p : Spelling} (hp : p.Valid) : ∀ w ∈ p.items, ∃ r, w.Stands r := by
  induction p with
  | done gap => simp [items]
  | item gap i rest ih => exact List.forall_mem_cons.2 ⟨⟨_, hp.2.1⟩, ih hp.2.2⟩

theorem Valid.read? {p : Spelling} (h : p.Valid) :
    AttributeList.read? p.source = some (.ofList (p.items.map Written.entry)) := by
  rw [AttributeList.read?, h.items?, Option.map_some, List.map_map]
  simp only [Function.comp_def, ← Written.entry_eq]

end Spelling

theorem read?_eq_none_iff {raw : Text} :
    read? raw = none ↔ ¬ ∃ p : Spelling, p.Valid ∧ p.source = raw := by
  constructor
  · rintro h ⟨p, hp, rfl⟩
    rw [hp.read?] at h
    cases h
  · intro h
    rw [read?, Option.map_eq_none_iff, Option.eq_none_iff_forall_ne_some]
    intro is his
    obtain ⟨p, hp, e, _⟩ := Spelling.exists_of_items? his
    exact h ⟨p, hp, e⟩

/-- A text is written in at most one way as an attribute list. If it is written so, its attributes are
those of its items, and otherwise the text is refused at the place of its tag. -/
theorem parse_spelling (source raw : Text) (offset : Nat) :
    ((∃ as, parse source offset raw = .ok as) ↔ ∃ p : Spelling, p.Valid ∧ p.source = raw) ∧
      (∀ p q : Spelling, p.Valid → q.Valid → p.source = raw → q.source = raw → p = q) ∧
      (∀ (p : Spelling) (as : Attrs), p.Valid → p.source = raw → parse source offset raw = .ok as →
        OrderedMap.Collects (p.items.map Written.entry) as) ∧
      ((¬ ∃ p : Spelling, p.Valid ∧ p.source = raw) → parse source offset raw =
        .error ⟨"Malformed attributes " ++ (Text.trimmed raw).quoted,
          some (Position.ofOffset source offset).line,
          some (Position.ofOffset source offset).column⟩) := by
  have hok : ∀ p : Spelling, p.Valid → p.source = raw →
      parse source offset raw = .ok (.ofList (p.items.map Written.entry)) := by
    rintro p hp rfl
    rw [parse, hp.read?]
  have hnone : (¬ ∃ p : Spelling, p.Valid ∧ p.source = raw) →
      parse source offset raw = .error (.ofFault source ⟨.malformedAttributes raw, offset⟩) := by
    intro h
    rw [parse, read?_eq_none_iff.2 h]
  refine ⟨⟨fun ⟨as, h⟩ => ?_, fun ⟨p, hp, e⟩ => ⟨_, hok p hp e⟩⟩,
    fun p q hp hq e e' => hp.unique hq (e.trans e'.symm), fun p as hp e h => ?_, hnone⟩
  · by_contra hn
    rw [hnone hn] at h
    cases h
  · rw [hok p hp e] at h
    cases h
    exact OrderedMap.collects_ofList _

/-- Items that touch, gaps around an equals sign, a slash in a bare value, a name that comes twice and
one with nothing between its quotes. A vertical tab is no gap and part of no item. -/
theorem parse_spelling_touching :
    let raw : Text := "a = 'x y'b=\"\"\na=/p c "
    let p : Spelling := .item [] (.assigned ['a'] [' '] [' '] (.singleQuoted "x y"))
      (.item [] (.assigned ['b'] [] [] (.doubleQuoted []))
        (.item ['\n'] (.assigned ['a'] [] [] (.bare "/p")) (.item [' '] (.bare ['c']) (.done [' ']))))
    let as : Attrs := .ofList [(['a'], .text "/p"), (['b'], .present), (['c'], .present)]
    let tab : Text := "a\x0bb"
    (p.Valid ∧ p.source = raw ∧ parse raw 3 raw = .ok as ∧
      OrderedMap.Collects (p.items.map Written.entry) as ∧
      ∀ q : Spelling, q.Valid → q.source = raw → p = q) ∧
      (¬ ∃ q : Spelling, q.Valid ∧ q.source = tab) ∧
      parse "x\ny" 3 tab = .error ⟨"Malformed attributes 'a\\x0bb'", some 2, some 2⟩ := by
  intro raw p as tab
  have hp : p.Valid := by decide
  have hs : p.source = raw := by decide
  have hok : parse raw 3 raw = .ok as := by decide +kernel
  have hn : ¬ ∃ q : Spelling, q.Valid ∧ q.source = tab := read?_eq_none_iff.1 (by decide +kernel)
  obtain ⟨_, hunique, hcollects, _⟩ := parse_spelling raw raw 3
  obtain ⟨_, _, _, herror⟩ := parse_spelling "x\ny" tab 3
  refine ⟨⟨hp, hs, hok, hcollects p as hp hs hok, fun q hq e => hunique p q hp hq hs e⟩, hn, ?_⟩
  rw [herror hn]
  decide +kernel

end AttributeList

end SfcTheme

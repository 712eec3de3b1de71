import Mathlib.Data.List.Forall2
import Mathlib.Data.List.Nodup
import SfcTheme.Lint.Verdict
import SfcTheme.Proofs.FixedPoint

set_option autoImplicit false

namespace SfcTheme

open Text (newlines)

section

variable {α β γ : Type} {R : α → β → Prop} {xs : List α} {ys : List β}
  (h : List.Forall₂ R xs ys)

include h

theorem map_eq_of_forall₂ {f : α → γ} {g : β → γ} (hfg : ∀ x y, R x y → f x = g y) :
    xs.map f = ys.map g := by
  rw [← List.forall₂_eq_eq_eq, List.forall₂_map_left_iff, List.forall₂_map_right_iff]
  exact h.imp hfg

theorem forall₂_zipIdx (k : Nat) :
    List.Forall₂ (fun x y => R x.1 y.1 ∧ x.2 = y.2) (xs.zipIdx k) (ys.zipIdx k) := by
  induction h generalizing k with
  | nil => exact .nil
  | cons hxy _ ih => exact .cons ⟨hxy, rfl⟩ (ih (k + 1))

theorem map_zipIdx_eq_of_forall₂ {f : α × Nat → γ} {g : β × Nat → γ}
    (hfg : ∀ x y i, R x y → f (x, i) = g (y, i)) : xs.zipIdx.map f = ys.zipIdx.map g :=
  map_eq_of_forall₂ (forall₂_zipIdx h 0) fun (x, i) (y, j) ⟨hxy, hi⟩ => by
    obtain rfl : i = j := hi
    exact hfg x y i hxy

theorem findSome?_eq_of_forall₂ {f : α → Option γ} {g : β → Option γ}
    (hfg : ∀ x y, R x y → f x = g y) : xs.findSome? f = ys.findSome? g := by
  have hm := congrArg (List.findSome? id) (map_eq_of_forall₂ h hfg)
  rwa [List.findSome?_map, List.findSome?_map] at hm

theorem any_eq_of_forall₂ {f : α → Bool} {g : β → Bool} (hfg : ∀ x y, R x y → f x = g y) :
    xs.any f = ys.any g := by
  have hm := congrArg (List.any · id) (map_eq_of_forall₂ h hfg)
  rwa [List.any_map, List.any_map] at hm

theorem flatMap_perm_of_forall₂ {f : α → List γ} {g : β → List γ}
    (hfg : ∀ x y, R x y → (f x).Perm (g y)) : (xs.flatMap f).Perm (ys.flatMap g) := by
  induction h with
  | nil => exact .nil
  | cons hxy _ ih => exact (hfg _ _ hxy).append ih

end

namespace OrderedMap

variable {κ α : Type} [DecidableEq κ] {m n : OrderedMap κ α}

theorem mem_entries_iff {e : κ × α} : e ∈ m.entries ↔ m.get? e.1 = some e.2 :=
  ⟨get?_of_mem, mem_of_lookup⟩

/-- No name comes twice, so what two maps hold decides about their entries up to the order. -/
theorem Same.perm (h : m.Same n) : m.entries.Perm n.entries := by
  rw [List.perm_ext_iff_of_nodup (List.Nodup.of_map _ m.distinct)
    (List.Nodup.of_map _ n.distinct)]
  intro e
  rw [mem_entries_iff, mem_entries_iff, h e.1]

theorem Same.has (h : m.Same n) (name : κ) : m.has name = n.has name := by
  rw [OrderedMap.has, OrderedMap.has, h name]

theorem Same.without (h : m.Same n) (excluded : List κ) :
    (m.without excluded).Same (n.without excluded) := fun name => by
  rw [get?_without, get?_without, h name]

end OrderedMap

namespace Style

def SameAttrs (s t : Style) : Prop := s.attrs.Same t.attrs

section

variable {s t u v : Style} (h : s.SameAttrs t)

include h

theorem SameAttrs.text? (name : Text) : s.text? name = t.text? name := by
  rw [Style.text?, Style.text?, h name]

theorem SameAttrs.theme? : s.theme? = t.theme? := by
  rw [Style.theme?, Style.theme?, h.text?]

theorem SameAttrs.isThemed : s.isThemed = t.isThemed := by
  rw [Style.isThemed, Style.isThemed, h.theme?]

theorem SameAttrs.isScoped : s.isScoped = t.isScoped := by
  rw [Style.isScoped, Style.isScoped, h "scoped"]

theorem SameAttrs.replace? : s.replace? = t.replace? := h "replace"

theorem SameAttrs.id? : s.id? = t.id? := h.text? "id"

theorem SameAttrs.replacementBy? (hu : u.SameAttrs v) (theme : Option Text) :
    s.replacementBy? theme u = t.replacementBy? theme v := by
  simp only [Style.replacementBy?, h.isScoped, h.id?, hu.theme?, hu.isScoped, hu.replace?]

theorem SameAttrs.fate {ss tt : List Style} (hs : List.Forall₂ SameAttrs ss tt)
    (theme : Option Text) : s.fate ss theme = t.fate tt theme := by
  rw [Style.fate, Style.fate, h.theme?,
    findSome?_eq_of_forall₂ hs fun _ _ hu => h.replacementBy? hu theme]

end

end Style

theorem decisions_congr {ss tt : List Style} (h : List.Forall₂ Style.SameAttrs ss tt)
    (theme : Option Text) : decisions ss theme = decisions tt theme :=
  map_zipIdx_eq_of_forall₂ h fun s t i hs => by simp only [hs.fate h]

namespace Rule

section

variable {ss tt : List Style} (h : List.Forall₂ Style.SameAttrs ss tt)

include h

theorem eachStyle_congr {find find' : Style → Nat → Option Finding}
    (hf : ∀ s t i, s.SameAttrs t → find s i = find' t i) :
    eachStyle find ss = eachStyle find' tt := by
  have hm := congrArg (List.filterMap id)
    (map_zipIdx_eq_of_forall₂ (f := fun p => find p.1 p.2) (g := fun p => find' p.1 p.2) h hf)
  rw [List.filterMap_map, List.filterMap_map] at hm
  exact hm

theorem any_isTarget_congr (target : Text) (isScoped : Bool) :
    ss.any (isTarget target isScoped) = tt.any (isTarget target isScoped) :=
  any_eq_of_forall₂ h fun s t hs => by
    simp only [isTarget, hs.isThemed, hs.isScoped, hs.id?]

theorem duplicatesAfter_congr (seen : List (Text × Nat)) (i : Nat) :
    duplicatesAfter seen i ss = duplicatesAfter seen i tt := by
  induction h generalizing seen i with
  | nil => rfl
  | cons hs _ ih => simp only [duplicatesAfter, hs.id?, ih]

end

theorem builtin_congr {a b : Component} (h : List.Forall₂ Style.SameAttrs a.styles b.styles) :
    ∀ rule ∈ builtin.map Prod.snd, rule a = rule b := by
  simp only [builtin, List.map_cons, List.map_nil, List.forall_mem_cons, List.not_mem_nil,
    false_imp_iff, implies_true, and_true]
  refine ⟨?_, ?_, ?_, duplicatesAfter_congr h [] 0⟩
  · exact eachStyle_congr h fun s t i hs => by simp only [hs.has, hs.isThemed]
  · exact eachStyle_congr h fun s t i hs => by simp only [hs.has]
  · exact eachStyle_congr h fun s t i hs => by
      simp only [hs.isThemed, hs.text?, hs.isScoped, any_isTarget_congr h]

end Rule

namespace Component

theorem findings_congr {a b : Component} (h : List.Forall₂ Style.SameAttrs a.styles b.styles) :
    a.findings [] = b.findings [] := by
  rw [findings, findings, List.append_nil, List.flatMap_def, List.flatMap_def,
    List.map_congr_left (Rule.builtin_congr h)]

end Component

/-! Components that are equal up to the order of attributes. -/

theorem isEqv_iff_forall₂ {α : Type} {same : α → α → Bool} {xs ys : List α} :
    xs.isEqv ys same = true ↔ List.Forall₂ (fun x y => same x y = true) xs ys := by
  induction xs generalizing ys with
  | nil => cases ys <;> simp [List.isEqv]
  | cons x xs ih => cases ys <;> simp [List.isEqv, ih]

theorem Block.same_iff {a b : Block} :
    a.same b = true ↔ a.kind = b.kind ∧ a.content = b.content ∧ a.attrs.Same b.attrs := by
  simp [Block.same, OrderedMap.same_iff, and_assoc]

theorem Style.same_iff {s t : Style} :
    s.same t = true ↔ s.content = t.content ∧ s.SameAttrs t := by
  simp [Style.same, Block.same_iff, toBlock, SameAttrs]

theorem Block.sectionText_perm {a b : Block} (h : a.same b = true) :
    a.sectionText.Perm b.sectionText := by
  obtain ⟨hk, hc, ha⟩ := Block.same_iff.1 h
  have hp : (Attrs.source a.attrs).Perm (Attrs.source b.attrs) := ha.perm.flatMap_right _
  rw [sectionText, sectionText, source, source, hk, hc]
  simp only [List.append_assoc]
  exact .append_left _ (.append_left _ (hp.append_right _))

theorem Text.intercalate_cons_eq_flatMap (separator l : Text) (ls : List Text) :
    separator.intercalate (l :: ls) = l ++ ls.flatMap (separator ++ ·) := by
  induction ls generalizing l with
  | nil => simp
  | cons m ms ih => rw [List.intercalate_cons_cons, ih, List.flatMap_cons, List.append_assoc,
      List.append_assoc]

theorem Text.intercalate_perm (separator : Text) {ls ms : List Text}
    (h : List.Forall₂ List.Perm ls ms) :
    (separator.intercalate ls).Perm (separator.intercalate ms) := by
  cases h with
  | nil => exact .nil
  | cons hl hls =>
    rw [intercalate_cons_eq_flatMap, intercalate_cons_eq_flatMap]
    exact hl.append (flatMap_perm_of_forall₂ hls fun _ _ h => h.append_left separator)

namespace Component

variable {a b : Component}

theorem slotSource_eq (slot : Option Block) :
    slotSource slot = slot.toList.flatMap Block.sectionText ++ ['\n'] := by
  cases slot <;> simp [slotSource]

theorem slotSource_perm {p q : Option Block}
    (h : p.toList.isEqv q.toList Block.same = true) : (slotSource p).Perm (slotSource q) := by
  rw [slotSource_eq, slotSource_eq]
  have hp := flatMap_perm_of_forall₂ (isEqv_iff_forall₂.1 h) fun _ _ => Block.sectionText_perm
  exact hp.append_right _

theorem source_perm (h : a.same b = true) : a.source.Perm b.source := by
  simp only [Component.same, Bool.and_eq_true] at h
  obtain ⟨⟨⟨ht, hs⟩, hss⟩, hcs⟩ := h
  rw [source, source]
  refine (((?_ : (customSource _).Perm (customSource _)).append (slotSource_perm ht)).append
    (slotSource_perm hs)).append ?_
  · exact flatMap_perm_of_forall₂ (isEqv_iff_forall₂.1 hcs) fun _ _ h =>
      (Block.sectionText_perm h).append_right _
  · refine Text.intercalate_perm _ ?_
    rw [List.forall₂_map_left_iff, List.forall₂_map_right_iff]
    exact (isEqv_iff_forall₂.1 hss).imp fun _ _ h => Block.sectionText_perm h

theorem same_themed (h : a.same b = true) (theme : Option Text) :
    (a.themed theme).same (b.themed theme) = true := by
  simp only [Component.same, Bool.and_eq_true] at h ⊢
  obtain ⟨⟨⟨ht, hs⟩, hss⟩, hcs⟩ := h
  refine ⟨⟨⟨ht, hs⟩, ?_⟩, hcs⟩
  have hall := (isEqv_iff_forall₂.1 hss).imp fun _ _ h => Style.same_iff.1 h
  rw [isEqv_iff_forall₂, themed, themed, List.forall₂_map_left_iff, List.forall₂_map_right_iff]
  refine hall.imp fun s t hst => ?_
  obtain ⟨hc, ha⟩ := hst
  refine Style.same_iff.2 ⟨?_, ha.without _⟩
  simp only [Style.emitted, ha.fate (hall.imp fun _ _ h => h.2), hc]

/-- Theming and validation look at no order of attributes. Nor do they look at contents or at other
blocks, and where these are the same as well, so is what comes out, character by character but for
the order. -/
theorem attribute_order (a b : Component) :
    (List.Forall₂ Style.SameAttrs a.styles b.styles →
      (∀ theme, decisions a.styles theme = decisions b.styles theme) ∧
      a.findings [] = b.findings []) ∧
    (a.same b = true → ∀ theme, (a.themed theme).same (b.themed theme) = true ∧
      (a.themed theme).source.length = (b.themed theme).source.length ∧
      newlines (a.themed theme).source = newlines (b.themed theme).source) := by
  refine ⟨fun h => ⟨decisions_congr h, findings_congr h⟩, fun h theme => ?_⟩
  have hp := source_perm (same_themed h theme)
  exact ⟨same_themed h theme, hp.length_eq, hp.count_eq '\n'⟩

/-- A base block, one that replaces it, and one more base block with the same id and a theme without a
name. All have their attributes the other way round in `b`, and other contents besides in `c`. -/
theorem attribute_order_reversed :
    let d : Text := ['d']
    let base : List (Text × AttrValue) := [("id", .text ['a']), ("media", .text "x\ny")]
    let aimed : List (Text × AttrValue) :=
      [("theme", .text d), ("scoped", .text []), ("replace", .text ['a'])]
    let nameless : List (Text × AttrValue) := [("theme", .present), ("id", .text ['a'])]
    let a : Component := ⟨none, none,
      [⟨"p\n", .ofList base⟩, ⟨['q'], .ofList aimed⟩, ⟨['r'], .ofList nameless⟩], []⟩
    let b : Component := ⟨none, none, [⟨"p\n", .ofList base.reverse⟩,
      ⟨['q'], .ofList aimed.reverse⟩, ⟨['r'], .ofList nameless.reverse⟩], []⟩
    let c : Component := ⟨some ⟨"template", [], .empty⟩, none, [⟨[], .ofList base.reverse⟩,
      ⟨[], .ofList aimed.reverse⟩, ⟨[], .ofList nameless.reverse⟩], []⟩
    (∀ theme, decisions a.styles theme = decisions c.styles theme) ∧
      (decisions a.styles (some d)).map (fun e => e.fate.suppressed) = [true, false, true] ∧
      a.findings [] = c.findings [] ∧ (a.findings []).map Finding.index = [some 2, some 2] ∧
      a.source ≠ b.source ∧ ∀ theme, (a.themed theme).same (b.themed theme) = true ∧
        (a.themed theme).source.length = (b.themed theme).source.length ∧
        newlines (a.themed theme).source = newlines (b.themed theme).source := by
  intro d base aimed nameless a b c
  have hstyles : List.Forall₂ Style.SameAttrs a.styles c.styles :=
    .cons (OrderedMap.same_iff.1 (by decide)) <| .cons (OrderedMap.same_iff.1 (by decide)) <|
      .cons (OrderedMap.same_iff.1 (by decide)) .nil
  obtain ⟨hdecisions, hfindings⟩ := (attribute_order a c).1 hstyles
  exact ⟨hdecisions, by decide, hfindings, by decide, by decide +kernel,
    (attribute_order a b).2 (by decide)⟩

end Component

end SfcTheme

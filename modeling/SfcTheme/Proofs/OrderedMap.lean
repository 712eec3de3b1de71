import Mathlib.Data.List.Induction
import SfcTheme.OrderedMap

set_option autoImplicit false

namespace SfcTheme

namespace OrderedMap

theorem ext_entries {κ α : Type} {m n : OrderedMap κ α} (h : m.entries = n.entries) : m = n := by
  cases m; cases n; cases h; rfl

def names {κ α : Type} (m : OrderedMap κ α) : List κ := m.entries.map Prod.fst

variable {κ α : Type} [DecidableEq κ]

theorem insert_of_not_mem {name : κ} {value : α} {es : List (κ × α)}
    (h : name ∉ es.map Prod.fst) : insert name value es = es ++ [(name, value)] := by
  induction es with
  | nil => rfl
  | cons e es ih =>
    rw [List.map_cons, List.mem_cons, not_or] at h
    simp [insert, Ne.symm h.1, ih h.2]

theorem entries_foldl_put (m : OrderedMap κ α) (es : List (κ × α))
    (h : ((m.entries ++ es).map Prod.fst).Nodup) :
    (es.foldl (fun m e => m.put e.1 e.2) m).entries = m.entries ++ es := by
  induction es generalizing m with
  | nil => simp
  | cons e es ih =>
    have hn : e.1 ∉ m.entries.map Prod.fst := by
      simp only [List.map_append, List.map_cons, List.nodup_append] at h
      exact fun hm => h.2.2 _ hm _ (by simp) rfl
    have hp : (m.put e.1 e.2).entries = m.entries ++ [e] := insert_of_not_mem hn
    rw [List.foldl_cons, ih _ (by simpa [hp] using h), hp, List.append_assoc, List.singleton_append]

theorem ofList_entries (m : OrderedMap κ α) : ofList m.entries = m :=
  ext_entries (entries_foldl_put empty m.entries m.distinct)

theorem mem_entries_foldl_put {m : OrderedMap κ α} {es : List (κ × α)} {e : κ × α}
    (h : e ∈ (es.foldl (fun m e => m.put e.1 e.2) m).entries) : e ∈ m.entries ∨ e ∈ es := by
  induction es generalizing m with
  | nil => exact .inl h
  | cons d es ih =>
    rcases ih h with h | h
    · rcases mem_insert h with rfl | h
      · exact .inr (by simp)
      · exact .inl h
    · exact .inr (by simp [h])

theorem mem_of_mem_ofList {es : List (κ × α)} {e : κ × α} (h : e ∈ (ofList es).entries) :
    e ∈ es := by
  rcases mem_entries_foldl_put h with h | h
  · cases h
  · exact h

theorem lookup_of_mem {es : List (κ × α)} (hd : (es.map Prod.fst).Nodup) {e : κ × α}
    (h : e ∈ es) : es.lookup e.1 = some e.2 := by
  induction es with
  | nil => cases h
  | cons d es ih =>
    obtain ⟨hn, hd⟩ := List.nodup_cons.1 hd
    rcases List.mem_cons.1 h with rfl | h
    · exact List.lookup_cons_self
    · have hne : e.1 ≠ d.1 := fun he => hn (List.mem_map.2 ⟨e, h, he⟩)
      rw [List.lookup_cons, beq_eq_false_iff_ne.2 hne, ih hd h]

theorem get?_of_mem {m : OrderedMap κ α} {e : κ × α} (h : e ∈ m.entries) :
    m.get? e.1 = some e.2 :=
  lookup_of_mem m.distinct h

/-- Each name of the list stands where it first came and has the value that came last. -/
structure Collects (es : List (κ × α)) (m : OrderedMap κ α) : Prop where
  names : m.names = (es.map Prod.fst).eraseDups
  last : ∀ name, m.get? name = (es.reverse.find? fun e => e.1 = name).map Prod.snd

theorem ofList_concat (es : List (κ × α)) (e : κ × α) :
    ofList (es ++ [e]) = (ofList es).put e.1 e.2 := by
  rw [ofList, List.foldl_append]
  rfl

theorem names_put (m : OrderedMap κ α) (name : κ) (value : α) :
    (m.put name value).names = if name ∈ m.names then m.names else m.names ++ [name] :=
  names_insert name value m.entries

theorem collects_ofList (es : List (κ × α)) : Collects es (ofList es) := by
  induction es using List.reverseRecOn with
  | nil => exact ⟨rfl, fun name => rfl⟩
  | append_singleton es e ih =>
    rw [ofList_concat]
    refine ⟨?_, fun name => ?_⟩
    · rw [names_put, ih.names, List.map_append, List.eraseDups_append]
      by_cases h : e.1 ∈ es.map Prod.fst <;> simp [h, List.removeAll, List.eraseDups_cons]
    · rw [get?_put, ih.last, List.reverse_append, List.reverse_singleton, List.singleton_append,
        List.find?_cons]
      by_cases h : e.1 = name
      · simp [h]
      · simp [h, Ne.symm h]

theorem ext_of_get? {m n : OrderedMap κ α} (hn : m.names = n.names)
    (hg : ∀ name, m.get? name = n.get? name) : m = n := by
  refine ext_entries ?_
  obtain ⟨es, hes⟩ := m
  obtain ⟨fs, hfs⟩ := n
  simp only [names, get?] at hn hg ⊢
  induction es generalizing fs with
  | nil => exact (List.map_eq_nil_iff.1 hn.symm).symm
  | cons e es ih =>
    cases fs with
    | nil => cases hn
    | cons f fs =>
      obtain ⟨hk, hn⟩ := List.cons.inj hn
      obtain ⟨he, hes⟩ := List.nodup_cons.1 hes
      obtain ⟨hf, hfs⟩ := List.nodup_cons.1 hfs
      have hv := hg e.1
      rw [List.lookup_cons, List.lookup_cons, beq_self_eq_true, ← hk, beq_self_eq_true] at hv
      rw [Prod.ext hk (Option.some.inj hv), ih hes fs hfs hn fun name => ?_]
      by_cases h : name = e.1
      · rw [h, lookup_eq_none_iff_names.2 he, hk, lookup_eq_none_iff_names.2 hf]
      · have hg := hg name
        rwa [List.lookup_cons, List.lookup_cons, ← hk, beq_eq_false_iff_ne.2 h] at hg

theorem collects_iff {es : List (κ × α)} {m : OrderedMap κ α} : Collects es m ↔ m = ofList es := by
  have h := collects_ofList es
  constructor
  · intro hm
    exact ext_of_get? (hm.names.trans h.names.symm) fun n => (hm.last n).trans (h.last n).symm
  · rintro rfl
    exact h

end OrderedMap

end SfcTheme

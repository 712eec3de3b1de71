/-!
Finite maps that keep the order in which their names came. Putting a name again changes its value and
not its place.
-/

set_option autoImplicit false

namespace SfcTheme

structure OrderedMap (κ α : Type) where
  entries : List (κ × α)
  distinct : (entries.map Prod.fst).Nodup
  deriving DecidableEq

namespace OrderedMap

variable {κ α : Type} [DecidableEq κ]

def insert (name : κ) (value : α) : List (κ × α) → List (κ × α)
  | [] => [(name, value)]
  | e :: es => if e.1 = name then (name, value) :: es else e :: insert name value es

theorem names_insert (name : κ) (value : α) (es : List (κ × α)) :
    (insert name value es).map Prod.fst =
      if name ∈ es.map Prod.fst then es.map Prod.fst else es.map Prod.fst ++ [name] := by
  induction es with
  | nil => simp [insert]
  | cons e es ih =>
    by_cases h : e.1 = name
    · simp [insert, h]
    · simp only [insert, h, if_false, List.map_cons, ih, List.mem_cons, Ne.symm h, false_or]
      split <;> rfl

theorem nodup_insert {name : κ} {value : α} {es : List (κ × α)}
    (h : (es.map Prod.fst).Nodup) : ((insert name value es).map Prod.fst).Nodup := by
  rw [names_insert]
  split
  · exact h
  · next n => exact List.nodup_append.2 ⟨h, by simp, fun a ha b hb => by grind⟩

theorem lookup_insert (name n : κ) (value : α) (es : List (κ × α)) :
    (insert name value es).lookup n = if n = name then some value else es.lookup n := by
  induction es with
  | nil =>
    by_cases h : n = name
    · simp [insert, h]
    · simp [insert, List.lookup_cons, beq_eq_false_iff_ne.2 h, h]
  | cons e es ih =>
    obtain ⟨m, v⟩ := e
    by_cases hm : m = name
    · subst hm
      by_cases h : n = m
      · simp [insert, h]
      · simp [insert, List.lookup_cons, beq_eq_false_iff_ne.2 h, h]
    · simp only [insert, hm, if_false]
      by_cases h : n = m
      · subst h
        simp [hm]
      · simp [List.lookup_cons, beq_eq_false_iff_ne.2 h, ih]

theorem lookup_eq_none_iff_names {name : κ} {es : List (κ × α)} :
    es.lookup name = none ↔ name ∉ es.map Prod.fst := by
  simp only [List.lookup_eq_none_iff, bne_iff_ne, List.mem_map, not_exists, not_and]
  exact ⟨fun h e he hn => h e he hn.symm, fun h e he hn => h e he hn.symm⟩

theorem mem_insert {name : κ} {value : α} {es : List (κ × α)} {e : κ × α}
    (h : e ∈ insert name value es) : e = (name, value) ∨ e ∈ es := by
  induction es with
  | nil => simpa [insert] using h
  | cons d es ih =>
    unfold insert at h
    split at h
    · exact (List.mem_cons.1 h).imp_right (List.mem_cons_of_mem d)
    · rcases List.mem_cons.1 h with rfl | h
      · exact .inr List.mem_cons_self
      · exact (ih h).imp_right (List.mem_cons_of_mem d)

theorem mem_of_lookup {name : κ} {value : α} {es : List (κ × α)}
    (h : es.lookup name = some value) : (name, value) ∈ es := by
  obtain ⟨before, after, rfl, _⟩ := List.lookup_eq_some_iff.1 h
  exact List.mem_append_right before List.mem_cons_self

def empty : OrderedMap κ α := ⟨[], List.nodup_nil⟩

instance : Inhabited (OrderedMap κ α) := ⟨empty⟩

def put (m : OrderedMap κ α) (name : κ) (value : α) : OrderedMap κ α :=
  ⟨insert name value m.entries, nodup_insert m.distinct⟩

/-- Each name stands where it first came and has the value that came last. -/
def ofList (entries : List (κ × α)) : OrderedMap κ α :=
  entries.foldl (fun m e => m.put e.1 e.2) empty

def get? (m : OrderedMap κ α) (name : κ) : Option α := m.entries.lookup name

def has (m : OrderedMap κ α) (name : κ) : Bool := (m.get? name).isSome

def without (m : OrderedMap κ α) (excluded : List κ) : OrderedMap κ α :=
  ⟨m.entries.filter fun e => !excluded.contains e.1,
    (List.filter_sublist.map Prod.fst).nodup m.distinct⟩

@[simp] theorem get?_put (m : OrderedMap κ α) (name n : κ) (value : α) :
    (m.put name value).get? n = if n = name then some value else m.get? n :=
  lookup_insert name n value m.entries

/-- Equality as maps: the order of the names plays no part. -/
def Same (a b : OrderedMap κ α) : Prop := ∀ name, a.get? name = b.get? name

def same [DecidableEq α] (a b : OrderedMap κ α) : Bool :=
  (a.entries ++ b.entries).all fun e => a.get? e.1 == b.get? e.1

theorem same_iff [DecidableEq α] {a b : OrderedMap κ α} : a.same b = true ↔ a.Same b := by
  simp only [same, List.all_eq_true, beq_iff_eq, Same, List.mem_append]
  refine ⟨fun h name => ?_, fun h e _ => h e.1⟩
  by_cases ha : name ∈ a.entries.map Prod.fst
  · obtain ⟨e, he, rfl⟩ := List.mem_map.1 ha
    exact h e (Or.inl he)
  by_cases hb : name ∈ b.entries.map Prod.fst
  · obtain ⟨e, he, rfl⟩ := List.mem_map.1 hb
    exact h e (Or.inr he)
  · exact (lookup_eq_none_iff_names.2 ha).trans (lookup_eq_none_iff_names.2 hb).symm

end OrderedMap

end SfcTheme

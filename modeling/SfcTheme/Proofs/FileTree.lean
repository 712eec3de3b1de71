import Mathlib.Data.List.Basic
import SfcTheme.Command.FileTree

set_option autoImplicit false

namespace SfcTheme

namespace FileTree

/-- Every node stands in a directory. -/
def Rooted (t : FileTree) : Prop := ∀ e ∈ t.nodes.entries, t.node? e.1.dropLast = some .directory

instance (t : FileTree) : Decidable t.Rooted :=
  inferInstanceAs (Decidable (∀ e ∈ t.nodes.entries, t.node? e.1.dropLast = some .directory))

theorem Rooted.node?_dropLast {t : FileTree} (h : t.Rooted) {p : Path} {n : Node}
    (hp : t.node? p = some n) : t.node? p.dropLast = some .directory := by
  by_cases hr : p = []
  · rw [hr]; rfl
  · rw [node?, if_neg hr] at hp
    exact h _ (OrderedMap.mem_of_lookup hp)

/-- The name leads away from the directory in which it is looked up. -/
def moves (name : Text) : Bool := name != [] && name != ['.']

theorem names_eq (path : Text) : names path = (path.splitOn '/').filter moves := rfl

theorem moves_of_mem_names {path name : Text} (h : name ∈ names path) : moves name = true :=
  (List.mem_filter.1 h).2

theorem walk_cons_eq_ok_iff {t : FileTree} {here p : Path} {name : Text} {ns : List Text} :
    t.walk here (name :: ns) = .ok p ↔ t.node? here = some .directory ∧
      if moves name = false then t.walk here ns = .ok p
      else if name = ['.', '.'] then t.walk here.dropLast ns = .ok p
      else t.node? (here ++ [name]) ≠ none ∧ t.walk (here ++ [name]) ns = .ok p := by
  have hm : moves name = false ↔ name = [] ∨ name = ['.'] := by
    rw [moves, Bool.and_eq_false_iff, bne_eq_false_iff_eq, bne_eq_false_iff_eq]
  rw [walk, if_congr hm rfl rfl]
  by_cases hd : t.node? here = some .directory
  · simp only [hd, ne_eq, not_true_eq_false, if_false, true_and]
    split
    · rfl
    · split
      · rfl
      · split
        · next hn => simp [hn]
        · next hn => simp [hn]
  · simp [hd]

theorem walk_append (t : FileTree) (here : Path) (xs ys : List Text) :
    t.walk here (xs ++ ys) = (t.walk here xs).bind (t.walk · ys) := by
  induction xs generalizing here with
  | nil => rfl
  | cons x xs ih =>
    rw [List.cons_append, walk, walk]
    split
    · rfl
    · split
      · exact ih _
      · split
        · exact ih _
        · split
          · rfl
          · exact ih _

theorem directory_of_walk {t : FileTree} {here p : Path} {ns : List Text}
    (h : t.walk here ns = .ok p) (hp : t.node? p = some .directory) :
    t.node? here = some .directory := by
  cases ns with
  | nil => cases h; exact hp
  | cons name ns => exact (walk_cons_eq_ok_iff.1 h).1

theorem walk_filter {t : FileTree} {here p : Path} {ns : List Text} (h : t.walk here ns = .ok p) :
    t.walk here (ns.filter moves) = .ok p := by
  induction ns generalizing here with
  | nil => exact h
  | cons name ns ih =>
    obtain ⟨hd, h⟩ := walk_cons_eq_ok_iff.1 h
    cases hm : moves name with
    | false =>
      rw [List.filter_cons_of_neg (by simp [hm])]
      exact ih (by simpa [hm] using h)
    | true =>
      rw [List.filter_cons_of_pos hm, walk_cons_eq_ok_iff]
      refine ⟨hd, ?_⟩
      simp only [hm, Bool.true_eq_false, if_false] at h ⊢
      split
      · next hu => rw [if_pos hu] at h; exact ih h
      · next hu => rw [if_neg hu] at h; exact h.imp_right ih

theorem walk_of_filter {t : FileTree} {here p : Path} {ns : List Text}
    (hp : t.node? p = some .directory) (h : t.walk here (ns.filter moves) = .ok p) :
    t.walk here ns = .ok p := by
  induction ns generalizing here with
  | nil => exact h
  | cons name ns ih =>
    rw [walk_cons_eq_ok_iff]
    cases hm : moves name with
    | false =>
      rw [List.filter_cons_of_neg (by simp [hm])] at h
      exact ⟨directory_of_walk h hp, by simpa [hm] using ih h⟩
    | true =>
      rw [List.filter_cons_of_pos hm, walk_cons_eq_ok_iff] at h
      refine ⟨h.1, ?_⟩
      have h := h.2
      simp only [hm, Bool.true_eq_false, if_false] at h ⊢
      split
      · next hu => rw [if_pos hu] at h; exact ih h
      · next hu => rw [if_neg hu] at h; exact h.imp_right ih

theorem find?_eq_some_iff {t : FileTree} {path : Text} {p : Path} {n : Node} :
    t.find? path = some (p, n) ↔
      path ≠ [] ∧ t.walk (t.start path) (path.splitOn '/') = .ok p ∧ t.node? p = some n := by
  unfold find?
  split
  · next h => simp [h]
  · next h =>
    cases hw : t.walk (t.start path) (path.splitOn '/') with
    | error f => simp
    | ok q =>
      simp only [Option.map_eq_some_iff, Prod.mk.injEq, Except.ok.injEq, ne_eq, h,
        not_false_eq_true, true_and]
      constructor
      · rintro ⟨m, hm, rfl, rfl⟩; exact ⟨rfl, hm⟩
      · rintro ⟨rfl, hn⟩; exact ⟨n, hn, rfl, rfl⟩

section

variable {t : FileTree} {place : Path} (octets : List UInt8)
  (hplace : t.node? place ≠ some .directory)

include hplace

theorem node?_put_file (q : Path) :
    (t.put place (.file octets)).node? q =
      if q = place then some (.file octets) else t.node? q :=
  node?_put t place q _ fun h => hplace (by rw [h]; rfl)

theorem walk_put_file {here p : Path} {ns : List Text} (h : t.walk here ns = .ok p) :
    (t.put place (.file octets)).walk here ns = .ok p := by
  have directory {q : Path} (hq : t.node? q = some .directory) :
      (t.put place (.file octets)).node? q = some .directory := by
    rw [node?_put_file octets hplace, if_neg fun e => hplace (by rw [← e, hq]), hq]
  induction ns generalizing here with
  | nil => exact h
  | cons name ns ih =>
    rw [walk_cons_eq_ok_iff] at h ⊢
    refine ⟨directory h.1, ?_⟩
    have h := h.2
    split
    · next hm => rw [if_pos hm] at h; exact ih h
    · next hm =>
      rw [if_neg hm] at h
      split
      · next hu => rw [if_pos hu] at h; exact ih h
      · next hu =>
        rw [if_neg hu] at h
        refine ⟨?_, ih h.2⟩
        rw [node?_put_file octets hplace]
        split
        · exact Option.some_ne_none _
        · exact h.1

end

/-! Path texts without the names that stay where they are. -/

theorem slash_not_mem_of_mem_names {path name : Text} (h : name ∈ names path) : '/' ∉ name :=
  fun hs => (Text.mem_splitOn (List.mem_filter.1 h).1 _ hs).2 rfl

theorem names_ne_nil_of_not_directory {t : FileTree} {path : Text} (hne : path ≠ [])
    (hs : t.node? (t.start path) = some .directory)
    (hd : ∀ p, t.find? path ≠ some (p, .directory)) : names path ≠ [] := by
  intro hn
  refine hd (t.start path) (find?_eq_some_iff.2 ⟨hne, walk_of_filter hs ?_, hs⟩)
  rw [← names_eq, hn]
  rfl

theorem intercalate_names {path : Text} (hne : names path ≠ []) :
    ∃ c s, List.intercalate ['/'] (names path) = c :: s ∧ c ≠ '/' ∧
      List.splitOn '/' (c :: s) = names path := by
  have hsplit : (List.intercalate ['/'] (names path)).splitOn '/' = names path :=
    List.splitOn_intercalate '/' (fun name => slash_not_mem_of_mem_names) hne
  have hempty : [] ∉ names path := fun h => absurd (moves_of_mem_names h) (by decide)
  cases hj : List.intercalate ['/'] (names path) with
  | nil =>
    rw [hj, List.splitOn_nil] at hsplit
    exact absurd (hsplit ▸ List.mem_singleton_self []) hempty
  | cons c s =>
    rw [hj] at hsplit
    refine ⟨c, s, rfl, fun hc => hempty ?_, hsplit⟩
    rw [← hsplit, hc, List.splitOn_cons_eq_if_modifyHead, if_pos (by decide)]
    exact List.mem_cons_self

theorem find?_tidied {t : FileTree} {path : Text} {p : Path} {n : Node} (hne : names path ≠ [])
    (hw : t.walk (t.start path) (names path) = .ok p) (hn : t.node? p = some n) :
    t.find? (tidied path) = some (p, n) := by
  obtain ⟨c, s, hj, hc, hsplit⟩ := intercalate_names hne
  have hslash : ("/" : Text) = ['/'] := rfl
  rw [tidied, hslash, hj]
  by_cases hr : path.head? = some '/'
  · have hs : t.start path = [] := if_pos hr
    rw [if_pos hr, List.singleton_append, find?_eq_some_iff,
      List.splitOn_cons_eq_if_modifyHead, if_pos (by decide), hsplit]
    refine ⟨List.cons_ne_nil _ _, ?_, hn⟩
    rw [start, List.head?_cons, if_pos rfl, walk_cons_eq_ok_iff, ← hs]
    exact ⟨hs ▸ rfl, hw⟩
  · have hs : t.start (c :: s) = t.start path := by
      rw [start, start, if_neg hr, if_neg (by simpa using hc)]
    rw [if_neg hr, List.nil_append, find?_eq_some_iff, hsplit, hs]
    exact ⟨List.cons_ne_nil _ _, hw, hn⟩

/-! Writing. -/

def Writable (t : FileTree) (path : Text) : Prop :=
  ∃ parent, t.walk (t.start path) (names path).dropLast = .ok parent ∧
    t.node? parent = some .directory

theorem write_eq_ok_iff {t after : FileTree} {path : Text} {octets : List UInt8} :
    t.write path octets = .ok after ↔
      ∃ parent, t.walk (t.start path) (names path).dropLast = .ok parent ∧
        t.node? parent = some .directory ∧
        t.put (parent ++ [lastName path]) (.file octets) = after := by
  unfold write
  cases hw : t.walk (t.start path) (names path).dropLast with
  | error f => simp
  | ok parent => by_cases hd : t.node? parent = some .directory <;> simp [hd]

theorem writable_iff {t : FileTree} {path : Text} (octets : List UInt8) :
    t.Writable path ↔ ∃ after, t.write path octets = .ok after := by
  constructor
  · rintro ⟨parent, hw, hp⟩
    exact ⟨_, write_eq_ok_iff.2 ⟨parent, hw, hp, rfl⟩⟩
  · rintro ⟨after, h⟩
    obtain ⟨parent, hw, hp, _⟩ := write_eq_ok_iff.1 h
    exact ⟨parent, hw, hp⟩

theorem Rooted.put_file {t : FileTree} {place : Path} {octets : List UInt8} (h : t.Rooted)
    (hd : t.node? place.dropLast = some .directory) (hnd : t.node? place ≠ some .directory) :
    (t.put place (.file octets)).Rooted := by
  intro e he
  have ht : t.node? e.1.dropLast = some .directory := by
    rcases OrderedMap.mem_insert he with rfl | he
    · exact hd
    · exact h e he
  rw [node?_put_file octets hnd, if_neg fun (hp : e.1.dropLast = place) => hnd (hp ▸ ht), ht]

section

variable {t : FileTree} {path : Text} {parent : Path}
  (hw : t.walk (t.start path) (names path).dropLast = .ok parent)
  (hp : t.node? parent = some .directory)

include hw

theorem walk_names (hn : names path ≠ []) :
    t.walk (t.start path) (names path) = t.walk parent [lastName path] := by
  have hl : lastName path = (names path).getLast hn := by
    rw [lastName, List.getLastD_eq_getLast?, List.getLast?_eq_some_getLast hn]
    rfl
  conv_lhs => rw [← List.dropLast_append_getLast hn, walk_append, hw, ← hl]
  rfl

include hp

theorem lastName_of_not_directory (hr : t.Rooted) (hne : path ≠ [])
    (hd : ∀ p, t.find? path ≠ some (p, .directory)) :
    names path ≠ [] ∧ moves (lastName path) = true ∧ lastName path ≠ ['.', '.'] ∧
      t.node? (parent ++ [lastName path]) ≠ some .directory := by
  have hn : names path ≠ [] := names_ne_nil_of_not_directory hne (directory_of_walk hw hp) hd
  have hlast : lastName path ∈ names path := by
    rw [lastName, List.getLastD_eq_getLast?, List.getLast?_eq_some_getLast hn]
    exact List.getLast_mem hn
  have hm : moves (lastName path) = true := moves_of_mem_names hlast
  have not_directory {p : Path} (hs : t.walk parent [lastName path] = .ok p) :
      t.node? p ≠ some .directory := fun hpd =>
    hd p (find?_eq_some_iff.2
      ⟨hne, walk_of_filter hpd (by rwa [← names_eq, walk_names hw hn]), hpd⟩)
  have hup : lastName path ≠ ['.', '.'] := by
    intro hu
    refine not_directory (p := parent.dropLast) ?_ (hr.node?_dropLast hp)
    rw [walk_cons_eq_ok_iff, hu]
    exact ⟨hp, rfl⟩
  refine ⟨hn, hm, hup, fun hpd => not_directory ?_ hpd⟩
  rw [walk_cons_eq_ok_iff, if_neg (by simp [hm]), if_neg hup]
  exact ⟨hp, by rw [hpd]; exact Option.some_ne_none _, rfl⟩

end

/-- A file that a path text names was made or changed, and nothing else. A path to a file that was
there leads to it still. -/
def Rewritten (t after : FileTree) (path : Text) (octets : List UInt8) : Prop :=
  ∃ place, after.find? (tidied path) = some (place, .file octets) ∧
    (∀ p n, t.find? path = some (p, n) → p = place ∧ after.find? path = some (p, .file octets)) ∧
    ∀ p, p ≠ place → after.node? p = t.node? p

theorem rewritten_of_write {t after : FileTree} {path : Text} {octets : List UInt8}
    (hr : t.Rooted) (hne : path ≠ []) (hd : ∀ p, t.find? path ≠ some (p, .directory))
    (h : t.write path octets = .ok after) : after.Rooted ∧ t.Rewritten after path octets := by
  obtain ⟨parent, hw, hp, rfl⟩ := write_eq_ok_iff.1 h
  obtain ⟨hn, hm, hup, hnd⟩ := lastName_of_not_directory hw hp hr hne hd
  have down {u : FileTree} {p : Path} : u.walk parent [lastName path] = .ok p ↔
      u.node? parent = some .directory ∧
        u.node? (parent ++ [lastName path]) ≠ none ∧ parent ++ [lastName path] = p := by
    rw [walk_cons_eq_ok_iff, if_neg (by simp [hm]), if_neg hup, walk, Except.ok.injEq]
  refine ⟨hr.put_file (by rw [List.dropLast_concat, hp]) hnd, ?_⟩
  generalize parent ++ [lastName path] = place at *
  have hnew : (t.put place (.file octets)).node? place = some (.file octets) := by
    rw [node?_put_file octets hnd, if_pos rfl]
  refine ⟨place, find?_tidied hn ?_ hnew, fun p n hf => ?_, fun p hne => ?_⟩
  · have hw' := walk_put_file octets hnd hw
    refine (walk_names hw' hn).trans (down.2 ⟨?_, ?_, rfl⟩)
    · rw [node?_put_file octets hnd, if_neg fun (e : parent = place) => hnd (e ▸ hp), hp]
    · rw [hnew]; exact Option.some_ne_none _
  · obtain ⟨_, hs, _⟩ := find?_eq_some_iff.1 hf
    have hpl : place = p := by
      have hs' := walk_filter hs
      rw [← names_eq, walk_names hw hn] at hs'
      exact (down.1 hs').2.2
    subst hpl
    exact ⟨rfl, find?_eq_some_iff.2 ⟨hne, walk_put_file octets hnd hs, hnew⟩⟩
  · rw [node?_put_file octets hnd, if_neg hne]

end FileTree

end SfcTheme

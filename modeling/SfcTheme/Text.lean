set_option autoImplicit false

namespace SfcTheme

abbrev Text := List Char

instance : Coe String Text := ⟨String.toList⟩

namespace Text

def ofNat (n : Nat) : Text := Nat.toDigits 10 n

def ofInt : Int → Text
  | .ofNat n => ofNat n
  | .negSucc n => '-' :: ofNat (n + 1)

def inRanges (table : List (Nat × Nat)) (c : Char) : Bool :=
  table.any fun r => r.1 ≤ c.toNat && c.toNat ≤ r.2

-- Core has no law of `isPrefixOf?`. The readers need this one to show that they end.
theorem eq_append_of_isPrefixOf? {lead s r : Text} (h : lead.isPrefixOf? s = some r) :
    s = lead ++ r := by
  induction lead generalizing s with
  | nil => exact Option.some.inj h
  | cons a lead ih =>
    cases s with
    | nil => cases h
    | cons b s =>
      change (if a == b then lead.isPrefixOf? s else none) = some r at h
      split at h
      · next hab => rw [ih h, eq_of_beq hab, List.cons_append]
      · cases h

/-- The text before the first place where `read` succeeds, with what it reads there. -/
def firstRead {α : Type} (read : Text → Option α) : Text → Option (Text × α)
  | [] => (read []).map fun a => ([], a)
  | c :: s =>
    match read (c :: s) with
    | some a => some ([], a)
    | none => (firstRead read s).map fun found => (c :: found.1, found.2)

theorem firstRead_sound {α : Type} {read : Text → Option α} {s before : Text} {a : α}
    (h : firstRead read s = some (before, a)) : ∃ r, s = before ++ r ∧ read r = some a := by
  induction s generalizing before with
  | nil =>
    obtain ⟨b, hb, e⟩ := Option.map_eq_some_iff.1 h
    cases e
    exact ⟨[], rfl, hb⟩
  | cons c s ih =>
    unfold firstRead at h
    split at h
    · next b hb => cases h; exact ⟨c :: s, rfl, hb⟩
    · obtain ⟨⟨b, d⟩, hb, e⟩ := Option.map_eq_some_iff.1 h
      cases e
      obtain ⟨r, hr, ha⟩ := ih hb
      exact ⟨r, by rw [hr, List.cons_append], ha⟩

theorem length_splitOn (separator : Char) (s : Text) :
    (s.splitOn separator).length = s.count separator + 1 := by
  induction s with
  | nil => rfl
  | cons c s ih =>
    rw [List.splitOn_cons_eq_if_modifyHead, List.count_cons]
    split
    · rw [List.length_cons, ih]
    · rw [List.length_modifyHead, ih, Nat.add_zero]

theorem mem_splitOn {separator : Char} {s l : Text} (h : l ∈ s.splitOn separator) :
    ∀ c ∈ l, c ∈ s ∧ c ≠ separator := by
  induction s generalizing l with
  | nil => simp_all [List.splitOn_nil]
  | cons d s ih =>
    have tail : ∀ m ∈ s.splitOn separator, ∀ c ∈ m, c ∈ d :: s ∧ c ≠ separator := fun m hm c hc =>
      (ih hm c hc).imp_left (List.mem_cons_of_mem d)
    rw [List.splitOn_cons_eq_if_modifyHead] at h
    split at h
    · rcases List.mem_cons.1 h with rfl | h
      · simp
      · exact tail l h
    · next hd =>
      obtain ⟨m, ms, e⟩ := List.exists_cons_of_ne_nil (List.splitOn_ne_nil separator s)
      rw [e] at h tail
      rcases List.mem_cons.1 h with rfl | h
      · exact List.forall_mem_cons.2
          ⟨⟨List.mem_cons_self, by simpa using hd⟩, tail m List.mem_cons_self⟩
      · exact tail l (List.mem_cons_of_mem m h)

end Text

end SfcTheme

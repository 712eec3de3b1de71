import Mathlib.Data.Finset.Card
import Mathlib.Data.List.Nodup
import Mathlib.Data.Nat.Find
import SfcTheme.Lint.Verdict

set_option autoImplicit false

namespace SfcTheme

namespace Rule

def about (rule : Rule) (c : Component) (i : Nat) : List Finding :=
  (rule c).filter fun d => d.index = some (i : Int)

/-- The indices of the blocks that are flagged, in their order. -/
def flagged (flags : Style → Nat → Bool) (styles : List Style) : List Nat :=
  (styles.zipIdx.filter fun e => flags e.1 e.2).map Prod.snd

theorem mem_flagged_iff {flags : Style → Nat → Bool} {styles : List Style} {i : Nat} :
    i ∈ flagged flags styles ↔ ∃ s, styles[i]? = some s ∧ flags s i = true := by
  simp only [flagged, List.mem_map, List.mem_filter, List.mem_zipIdx_iff_getElem?]
  constructor
  · rintro ⟨⟨s, j⟩, ⟨hs, hf⟩, rfl⟩
    exact ⟨s, hs, hf⟩
  · rintro ⟨s, hs, hf⟩
    exact ⟨(s, i), ⟨hs, hf⟩, rfl⟩

theorem flagged_increasing (flags : Style → Nat → Bool) (styles : List Style) :
    (flagged flags styles).Pairwise (· < ·) := by
  have h : (styles.zipIdx.map Prod.snd).Pairwise (· < ·) := by
    rw [List.zipIdx_map_snd]
    exact List.pairwise_lt_range'
  exact h.sublist (List.filter_sublist.map Prod.snd)

/-- The rule has one finding about each block that `flags` holds of, all of one severity, and no
other one. -/
structure Flags (rule : Rule) (c : Component) (severity : Severity)
    (flags : Style → Nat → Bool) : Prop where
  indices : (rule c).map Finding.index = (flagged flags c.styles).map fun i : Nat => some (i : Int)
  severities : ∀ d ∈ rule c, d.severity = severity

section

variable {rule : Rule} {c : Component} {severity : Severity} {flags : Style → Nat → Bool}

theorem flags_of_eachStyle {find : Style → Nat → Option Finding}
    (hr : rule c = eachStyle find c.styles)
    (hf : ∀ s i, (find s i).isSome = flags s i)
    (hd : ∀ s i d, find s i = some d → d.index = some (i : Int) ∧ d.severity = severity) :
    Flags rule c severity flags where
  indices := by
    rw [hr, eachStyle, flagged]
    induction c.styles.zipIdx with
    | nil => rfl
    | cons e es ih =>
      obtain ⟨s, i⟩ := e
      cases h : find s i with
      | none =>
        have hn : flags s i = false := by rw [← hf, h]; rfl
        simpa [h, hn] using ih
      | some d =>
        have hs : flags s i = true := by rw [← hf, h]; rfl
        simpa [h, hs, (hd s i d h).1] using ih
  severities d h := by
    rw [hr] at h
    obtain ⟨⟨s, i⟩, _, hs⟩ := List.mem_filterMap.1 h
    exact (hd s i d hs).2

theorem Flags.length_about (h : Flags rule c severity flags) {i : Nat} {s : Style}
    (hs : c.styles[i]? = some s) : (about rule c i).length = (flags s i).toNat := by
  have hnodup : (flagged flags c.styles).Nodup :=
    (flagged_increasing flags c.styles).imp Nat.ne_of_lt
  have hmem : i ∈ flagged flags c.styles ↔ flags s i = true := by simp [mem_flagged_iff, hs]
  have hinj : Function.Injective fun i : Nat => some (i : Int) := fun _ _ e =>
    Int.ofNat_inj.1 (Option.some.inj e)
  calc (about rule c i).length
      = ((rule c).map Finding.index).count (some (i : Int)) := by
        rw [about, ← List.countP_eq_length_filter, List.count, List.countP_map]
        exact List.countP_congr fun d _ => by simp
    _ = (flagged flags c.styles).count i := by
        rw [h.indices, List.count_map_of_injective _ _ hinj]
    _ = (flags s i).toNat := by
        rw [hnodup.count]
        cases hf : flags s i <;> simp [hmem, hf]

theorem Flags.ne_nil_iff (h : Flags rule c severity flags) :
    rule c ≠ [] ↔ ∃ (i : Nat) (s : Style), c.styles[i]? = some s ∧ flags s i = true := by
  have hn : rule c = [] ↔ flagged flags c.styles = [] := by
    have hi := congrArg (· = []) h.indices
    simpa only [List.map_eq_nil_iff, eq_iff_iff] using hi
  simp only [ne_eq, hn, List.eq_nil_iff_forall_not_mem, not_forall, not_not, mem_flagged_iff]

end

theorem flags_themeHasValue (c : Component) :
    Flags themeHasValue c .error fun s _ => s.attrs.has "theme" && !s.isThemed := by
  refine flags_of_eachStyle rfl (fun s i => ?_) fun s i d h => ?_
  · split <;> simp_all
  · split at h <;> cases h
    exact ⟨rfl, rfl⟩

theorem flags_replaceOnBaseBlock (c : Component) :
    Flags replaceOnBaseBlock c .warning fun s _ =>
      !s.attrs.has "theme" && s.attrs.has "replace" := by
  refine flags_of_eachStyle rfl (fun s i => ?_) fun s i d h => ?_
  · split <;> simp_all
  · split at h <;> cases h
    exact ⟨rfl, rfl⟩

def missesTarget (styles : List Style) (s : Style) : Bool :=
  s.isThemed && (s.text? "replace").any fun target => !styles.any (isTarget target s.isScoped)

theorem flags_replaceTargetExists (c : Component) :
    Flags replaceTargetExists c .warning fun s _ => missesTarget c.styles s := by
  refine flags_of_eachStyle rfl (fun s i => ?_) fun s i d h => ?_
  · rw [missesTarget]
    cases s.isThemed with
    | false => rfl
    | true =>
      cases s.text? "replace" with
      | none => rfl
      | some target => cases ha : c.styles.any (isTarget target s.isScoped) <;> simp [ha]
  · split at h
    · split at h <;> cases h
      exact ⟨rfl, rfl⟩
    · cases h

/-! Repeated ids. -/

def firstWith? (id : Text) (styles : List Style) : Option Nat :=
  styles.findIdx? fun s => s.id? = some id

def repetition (id : Text) (first i : Nat) : Finding where
  rule := "check_duplicate_ids"
  severity := .warning
  message := "id '" ++ id ++ "' is already used by style#" ++ Text.ofNat first ++ "."
  index := some i
  fix := some "Give each style block a distinct id.".toList

def repetition? (styles : List Style) (s : Style) (i : Nat) : Option Finding :=
  s.id?.bind fun id => (firstWith? id (styles.take i)).map fun first => repetition id first i

theorem firstWith?_concat (id : Text) (before : List Style) (s : Style) :
    firstWith? id (before ++ [s]) =
      (firstWith? id before).or (if s.id? = some id then some before.length else none) := by
  rw [firstWith?, List.findIdx?_append, firstWith?]
  by_cases h : s.id? = some id <;> simp [h, List.findIdx?_cons]

/-- `seen` holds the first of the blocks for every id that one of them has. -/
def Remembers (seen : List (Text × Nat)) (before : List Style) : Prop :=
  ∀ id, seen.lookup id = firstWith? id before

section

variable {seen : List (Text × Nat)} {before : List Style} {s : Style} {id : Text}
  (h : Remembers seen before)

include h

theorem Remembers.concat_known (hs : ∀ id, s.id? = some id → seen.lookup id ≠ none) :
    Remembers seen (before ++ [s]) := by
  intro id
  have hk := hs id
  rw [h] at hk
  rw [h, firstWith?_concat]
  split
  · next he =>
    obtain ⟨first, hf⟩ := Option.ne_none_iff_exists'.1 (hk he)
    rw [hf]
    rfl
  · rw [Option.or_none]

theorem Remembers.concat_new (hs : s.id? = some id) (hl : seen.lookup id = none) :
    Remembers ((id, before.length) :: seen) (before ++ [s]) := by
  intro id'
  rw [List.lookup_cons, firstWith?_concat, hs, ← h]
  by_cases he : id' = id
  · subst he
    simp [hl]
  · simp [beq_eq_false_iff_ne.2 he, Ne.symm he]

theorem Remembers.duplicatesAfter_eq (styles : List Style) :
    duplicatesAfter seen before.length styles =
      (styles.zipIdx before.length).filterMap fun e => repetition? (before ++ styles) e.1 e.2 := by
  induction styles generalizing before seen with
  | nil => rfl
  | cons s ss ih =>
    have hlater {seen' : List (Text × Nat)} (h' : Remembers seen' (before ++ [s])) :
        duplicatesAfter seen' (before.length + 1) ss = (ss.zipIdx (before.length + 1)).filterMap
          fun e => repetition? (before ++ s :: ss) e.1 e.2 := by
      simpa using ih h'
    have hhere : repetition? (before ++ s :: ss) s before.length =
        s.id?.bind fun id => (seen.lookup id).map fun first =>
          repetition id first before.length := by
      have hl : ∀ id, seen.lookup id = firstWith? id before := h
      simp only [repetition?, List.take_left, hl]
    simp only [List.zipIdx_cons, List.filterMap_cons, hhere, duplicatesAfter]
    cases hs : s.id? with
    | none => exact hlater (h.concat_known (by simp [hs]))
    | some id =>
      cases hl : seen.lookup id with
      | none =>
        simp only [Option.bind_some, hl]
        exact hlater (h.concat_new hs hl)
      | some first =>
        simp only [Option.bind_some, hl, Option.map_some]
        have hknown : ∀ id', s.id? = some id' → seen.lookup id' ≠ none := by
          intro id' hs'
          obtain rfl : id = id' := Option.some.inj (hs.symm.trans hs')
          rw [hl]
          exact Option.some_ne_none first
        exact congrArg (repetition id first before.length :: ·) (hlater (h.concat_known hknown))

end

theorem duplicateIds_eq (c : Component) :
    duplicateIds c = eachStyle (repetition? c.styles) c.styles := by
  have h : Remembers [] [] := fun _ => rfl
  exact h.duplicatesAfter_eq c.styles

theorem flags_duplicateIds (c : Component) :
    Flags duplicateIds c .warning fun s i => (repetition? c.styles s i).isSome := by
  refine flags_of_eachStyle (duplicateIds_eq c) (fun _ _ => rfl) fun s i d h => ?_
  obtain ⟨id, _, h⟩ := Option.bind_eq_some_iff.1 h
  obtain ⟨first, _, rfl⟩ := Option.map_eq_some_iff.1 h
  exact ⟨rfl, rfl⟩

/-- Every block with an id is reported, or it is the first one with an id that `seen` lacks. -/
theorem length_duplicatesAfter (seen : List (Text × Nat)) (i : Nat) (styles : List Style) :
    (duplicatesAfter seen i styles).length +
        ((styles.filterMap Style.id?).toFinset.filter fun id =>
          seen.lookup id = none).card =
      (styles.filterMap Style.id?).length := by
  induction styles generalizing seen i with
  | nil => rfl
  | cons s ss ih =>
    rw [duplicatesAfter]
    cases hs : s.id? with
    | none => simpa [hs] using ih seen (i + 1)
    | some id =>
      simp only [List.filterMap_cons, hs, List.toFinset_cons, List.length_cons]
      cases hl : seen.lookup id with
      | some first =>
        simp only [List.length_cons]
        rw [Finset.filter_insert, if_neg (by simp [hl]), ← ih seen (i + 1)]
        omega
      | none =>
        have hsplit : (insert id (ss.filterMap Style.id?).toFinset).filter (fun id' =>
            seen.lookup id' = none) =
              insert id ((ss.filterMap Style.id?).toFinset.filter fun id' =>
                ((id, i) :: seen).lookup id' = none) := by
          ext id'
          by_cases he : id = id'
          · subst he
            simp [hl]
          · have hkeep : ((id, i) :: seen).lookup id' = seen.lookup id' := by
              rw [List.lookup_cons, beq_eq_false_iff_ne.2 (Ne.symm he)]
            simp only [Finset.mem_filter, Finset.mem_insert, hkeep, Ne.symm he, false_or]
        have hnew : id ∉ (ss.filterMap Style.id?).toFinset.filter fun id' =>
            ((id, i) :: seen).lookup id' = none := by
          simp
        rw [hsplit, Finset.card_insert_of_notMem hnew, ← ih ((id, i) :: seen) (i + 1), Nat.add_assoc]

end Rule

namespace Component

def ids (c : Component) : List Text := c.styles.filterMap Style.id?

def idAt? (c : Component) (i : Nat) : Option Text := c.styles[i]?.bind Style.id?

theorem length_duplicateIds (c : Component) :
    (Rule.duplicateIds c).length + c.ids.toFinset.card = c.ids.length := by
  have h := Rule.length_duplicatesAfter [] 0 c.styles
  simp only [List.lookup_nil, Finset.filter_true] at h
  exact h

theorem duplicateIds_eq_nil_iff (c : Component) : Rule.duplicateIds c = [] ↔ c.ids.Nodup := by
  have h := c.length_duplicateIds
  rw [← List.length_eq_zero_iff, ← Multiset.coe_nodup, ← Multiset.toFinset_card_eq_card_iff_nodup]
  change _ ↔ c.ids.toFinset.card = c.ids.length
  omega

theorem firstWith?_take_eq_some_iff {c : Component} {id : Text} {i j : Nat} :
    Rule.firstWith? id (c.styles.take i) = some j ↔
      j < i ∧ c.idAt? j = some id ∧ ∀ k < j, c.idAt? k ≠ some id := by
  have hat {k : Nat} (hk : k < c.styles.length) : c.idAt? k = c.styles[k].id? := by
    rw [idAt?, List.getElem?_eq_getElem hk, Option.bind_some]
  rw [Rule.firstWith?, List.findIdx?_eq_some_iff_getElem]
  simp only [List.length_take, List.getElem_take, decide_eq_true_eq]
  constructor
  · rintro ⟨hj, hid, hn⟩
    refine ⟨by omega, by rw [hat (by omega), hid], fun k hk => ?_⟩
    rw [hat (by omega)]
    exact hn k hk
  · rintro ⟨hj, hid, hn⟩
    have hl : j < c.styles.length := by
      by_contra hl
      rw [idAt?, List.getElem?_eq_none (by omega)] at hid
      cases hid
    refine ⟨by omega, by rw [← hat hl, hid], fun k hk => ?_⟩
    rw [← hat (by omega)]
    exact hn k hk

theorem repetition?_eq_some_iff {c : Component} {i : Nat} {s : Style} (hs : c.styles[i]? = some s)
    {d : Finding} :
    Rule.repetition? c.styles s i = some d ↔ ∃ id j, c.idAt? i = some id ∧
      (j < i ∧ c.idAt? j = some id ∧ ∀ k < j, c.idAt? k ≠ some id) ∧
      Rule.repetition id j i = d := by
  have hi : c.idAt? i = s.id? := by rw [idAt?, hs, Option.bind_some]
  simp only [Rule.repetition?, Option.bind_eq_some_iff, Option.map_eq_some_iff,
    firstWith?_take_eq_some_iff, hi, exists_and_left]

theorem isSome_repetition?_iff {c : Component} {i : Nat} {s : Style} (hs : c.styles[i]? = some s) :
    (Rule.repetition? c.styles s i).isSome = true ↔
      ∃ id, c.idAt? i = some id ∧ ∃ j < i, c.idAt? j = some id := by
  rw [Option.isSome_iff_exists]
  constructor
  · rintro ⟨d, h⟩
    obtain ⟨id, j, hi, ⟨hj, hid, _⟩, _⟩ := (repetition?_eq_some_iff hs).1 h
    exact ⟨id, hi, j, hj, hid⟩
  · rintro ⟨id, hi, j, hj, hid⟩
    have hx : ∃ j, c.idAt? j = some id := ⟨j, hid⟩
    have hlt : Nat.find hx < i := Nat.lt_of_le_of_lt (Nat.find_min' hx hid) hj
    exact ⟨_, (repetition?_eq_some_iff hs).2
      ⟨id, _, hi, ⟨hlt, Nat.find_spec hx, fun k hk => Nat.find_min hx hk⟩, rfl⟩⟩

/-- The blocks at which an id comes again are reported in their order, each once and with the first
block that has the id. So there are as many reports as ids less the distinct ones. -/
theorem duplicateIds_reports (c : Component) :
    (∃ repeated : List Nat, (Rule.duplicateIds c).map Finding.index =
        repeated.map (fun i : Nat => some (i : Int)) ∧
      repeated.Pairwise (· < ·) ∧
      ∀ i, i ∈ repeated ↔ ∃ id, c.idAt? i = some id ∧ ∃ j < i, c.idAt? j = some id) ∧
    (∀ d ∈ Rule.duplicateIds c, ∃ (id : Text) (i j : Nat),
      d.index = some (i : Int) ∧ c.idAt? i = some id ∧
        (j < i ∧ c.idAt? j = some id ∧ ∀ k < j, c.idAt? k ≠ some id) ∧
        d.message = "id '" ++ id ++ "' is already used by style#" ++ Text.ofNat j ++ ".") ∧
    (Rule.duplicateIds c).length + c.ids.toFinset.card = c.ids.length ∧
    (Rule.duplicateIds c = [] ↔ c.ids.Nodup) := by
  refine ⟨⟨_, (Rule.flags_duplicateIds c).indices, Rule.flagged_increasing _ _, fun i => ?_⟩,
    fun d hd => ?_, c.length_duplicateIds, c.duplicateIds_eq_nil_iff⟩
  · rw [Rule.mem_flagged_iff]
    constructor
    · rintro ⟨s, hs, hr⟩
      exact (isSome_repetition?_iff hs).1 hr
    · rintro ⟨id, hi, hj⟩
      obtain ⟨s, hs, _⟩ := Option.bind_eq_some_iff.1 hi
      exact ⟨s, hs, (isSome_repetition?_iff hs).2 ⟨id, hi, hj⟩⟩
  · rw [Rule.duplicateIds_eq] at hd
    obtain ⟨⟨s, i⟩, hm, hd⟩ := List.mem_filterMap.1 hd
    have hs : c.styles[i]? = some s := List.mem_zipIdx_iff_getElem?.1 hm
    obtain ⟨id, j, hi, hj, rfl⟩ := (repetition?_eq_some_iff hs).1 hd
    exact ⟨id, i, j, rfl, hi, hj, rfl⟩

/-- An id three times, an empty one twice, a bare one and none at all. -/
theorem duplicateIds_reports_empty_id :
    let block : AttrValue → Style := fun v => ⟨[], .ofList [("id", v)]⟩
    let c : Component := ⟨none, none, [block (.text ['a']), block .present, block (.text []),
      block (.text ['a']), ⟨[], .empty⟩, block .present, block (.text []), block (.text ['a'])], []⟩
    let d : Finding := Rule.repetition ['a'] 0 7
    (Rule.duplicateIds c).map Finding.index = [some 3, some 6, some 7] ∧
      d ∈ Rule.duplicateIds c ∧ d.message = "id 'a' is already used by style#0." ∧
      (∃ (id : Text) (i j : Nat), d.index = some (i : Int) ∧ c.idAt? i = some id ∧
        (j < i ∧ c.idAt? j = some id ∧ ∀ k < j, c.idAt? k ≠ some id) ∧
        d.message = "id '" ++ id ++ "' is already used by style#" ++ Text.ofNat j ++ ".") ∧
      3 + c.ids.toFinset.card = 5 ∧ ¬ c.ids.Nodup := by
  intro block c d
  obtain ⟨_, names, hlength, hnodup⟩ := duplicateIds_reports c
  have hd : Rule.duplicateIds c = [Rule.repetition ['a'] 0 3, Rule.repetition [] 2 6, d] := by
    decide
  have hm : d ∈ Rule.duplicateIds c := by simp [hd]
  rw [hd] at hlength hnodup
  exact ⟨by rw [hd]; rfl, hm, by decide, names d hm, hlength,
    fun h => absurd (hnodup.2 h) (by simp)⟩

end Component

end SfcTheme

import Mathlib.Data.List.Infix
import SfcTheme.Markup.Nesting
import SfcTheme.Proofs.RawText

/-!
The end of a template. Its content is scanned in front of everything that follows, so a token of the
content may run on behind it. Where none does, the scan is that of the content alone.
-/

set_option autoImplicit false

namespace SfcTheme

namespace Lexeme

def IsToken : Lexeme → Prop
  | .plain _ => False
  | .comment body => Comment.IsBody body
  | .opening inside => StartTag.IsInside none inside ∧ endsName (inside ++ ['>']) = true
  | .closing gap => CloseTag.IsGap gap

theorem endsName_append_end (inside r : Text) :
    endsName (inside ++ '>' :: r) = endsName (inside ++ ['>']) := by
  cases inside <;> rfl

theorem opening?_eq_some_iff {s inside r : Text} :
    opening? s = some (inside, r) ↔
      s = (opening inside).source ++ r ∧ (opening inside).IsToken := by
  constructor
  · intro h
    refine ⟨opening?_sound h, ?_⟩
    obtain ⟨t, ht, hr⟩ := Option.bind_eq_some_iff.1 h
    split at hr
    · next he =>
      obtain ⟨rfl, hi⟩ := StartTag.untilTagEnd_eq_some_iff.1 hr
      exact ⟨hi, by rwa [endsName_append_end] at he⟩
    · cases hr
  · intro h
    obtain ⟨rfl, hi, he⟩ := h
    rw [← endsName_append_end inside r] at he
    have ht := StartTag.untilTagEnd_of_isInside hi r
    have hs : (opening inside).source ++ r = opener ++ (inside ++ '>' :: r) := by simp [source]
    rw [hs, opening?, List.isPrefixOf?_eq_some_iff_append_eq.2 rfl, Option.bind_some, if_pos he, ht]

theorem read?_eq_none_of_second {d : Char} {s : Text} (hd : d ≠ '!') :
    Comment.read? ('<' :: d :: s) = none := by
  simp [Comment.read?, Comment.opener, List.isPrefixOf?, Ne.symm hd]

theorem closeTag_read?_eq_none_of_second {d : Char} {s : Text} (hd : d ≠ '/') :
    CloseTag.read? kind ('<' :: d :: s) = none := by
  simp [CloseTag.read?, List.isPrefixOf?, Ne.symm hd]

theorem token?_eq_some_iff {s r : Text} {l : Lexeme} :
    token? s = some (l, r) ↔ s = l.source ++ r ∧ l.IsToken := by
  constructor
  · intro h
    refine ⟨token?_sound h, ?_⟩
    unfold token? at h
    split at h
    · next hc => cases h; exact (Comment.read?_eq_some_iff.1 hc).2
    · split at h
      · next hc => cases h; exact (CloseTag.read?_eq_some_iff.1 hc).2
      · obtain ⟨⟨i, t⟩, hi, e⟩ := Option.map_eq_some_iff.1 h
        cases e
        exact (opening?_eq_some_iff.1 hi).2
  · intro h
    obtain ⟨rfl, hl⟩ := h
    cases l with
    | plain => cases hl
    | comment body =>
      have hc : Comment.read? (Comment.source body ++ r) = some (body, r) :=
        Comment.read?_eq_some_iff.2 ⟨rfl, hl⟩
      rw [token?, source, hc]
    | closing gap =>
      have hc : CloseTag.read? kind (CloseTag.source kind gap ++ r) = some (gap, r) :=
        CloseTag.read?_eq_some_iff.2 ⟨rfl, hl⟩
      have hn : Comment.read? (CloseTag.source kind gap ++ r) = none :=
        read?_eq_none_of_second (by decide)
      rw [token?, source, hn, hc]
    | opening inside =>
      have ho : opening? ((opening inside).source ++ r) = some (inside, r) :=
        opening?_eq_some_iff.2 ⟨rfl, hl⟩
      have hn : Comment.read? ((opening inside).source ++ r) = none :=
        read?_eq_none_of_second (by decide)
      have hc : CloseTag.read? kind ((opening inside).source ++ r) = none :=
        closeTag_read?_eq_none_of_second (by decide)
      rw [token?, hn, hc, ho]
      rfl

theorem token?_append {s r : Text} {l : Lexeme} (h : token? s = some (l, r)) (t : Text) :
    token? (s ++ t) = some (l, r ++ t) := by
  obtain ⟨rfl, hl⟩ := token?_eq_some_iff.1 h
  exact token?_eq_some_iff.2 ⟨by simp, hl⟩

theorem ofText_of_token? {s r : Text} {l : Lexeme} (h : token? s = some (l, r)) :
    ofText s = l :: ofText r := by
  cases s with
  | nil =>
    simp [token?, Comment.read?, Comment.opener, CloseTag.read?, opening?, opener,
      List.isPrefixOf?] at h
  | cons c t =>
    rw [ofText]
    split
    · next h' => rw [h] at h'; cases h'; rfl
    · next h' => rw [h] at h'; cases h'

theorem ofText_of_none {c : Char} {s : Text} (h : token? (c :: s) = none) :
    ofText (c :: s) = .plain c :: ofText s := by
  rw [ofText]
  split
  · next h' => rw [h] at h'; cases h'
  · rfl

inductive Cuts : Text → List Lexeme → Text → Prop where
  | done {r : Text} : Cuts r [] r
  | token {s t r : Text} {l : Lexeme} {ls : List Lexeme} :
      token? s = some (l, t) → Cuts t ls r → Cuts s (l :: ls) r
  | plain {c : Char} {s r : Text} {ls : List Lexeme} :
      token? (c :: s) = none → Cuts s ls r → Cuts (c :: s) (.plain c :: ls) r

theorem Cuts.eq_append {s r : Text} {ls : List Lexeme} (h : Cuts s ls r) :
    s = sources ls ++ r := by
  induction h with
  | done => rfl
  | token ht _ ih => rw [token?_sound ht, ih]; simp
  | plain _ _ ih => rw [ih]; rfl

theorem Cuts.ofText_eq {s r : Text} {ls : List Lexeme} (h : Cuts s ls r) :
    ofText s = ls ++ ofText r := by
  induction h with
  | done => rfl
  | token ht _ ih => rw [ofText_of_token? ht, ih]; rfl
  | plain ht _ ih => rw [ofText_of_none ht, ih]; rfl

theorem cuts_of_ofText {s : Text} {ls ms : List Lexeme} (h : ofText s = ls ++ ms) :
    ∃ r, Cuts s ls r ∧ ofText r = ms := by
  induction ls generalizing s with
  | nil => exact ⟨s, .done, h⟩
  | cons l ls ih =>
    cases s with
    | nil => simp [ofText] at h
    | cons c s =>
      cases ht : token? (c :: s) with
      | some p =>
        rw [ofText_of_token? ht, List.cons_append] at h
        obtain ⟨rfl, hl⟩ := List.cons.inj h
        obtain ⟨r, hr, hm⟩ := ih hl
        exact ⟨r, .token ht hr, hm⟩
      | none =>
        rw [ofText_of_none ht, List.cons_append] at h
        obtain ⟨rfl, hl⟩ := List.cons.inj h
        obtain ⟨r, hr, hm⟩ := ih hl
        exact ⟨r, .plain ht hr, hm⟩

theorem Cuts.of_append {s t r : Text} {ls : List Lexeme} (h : Cuts (s ++ t) ls (r ++ t)) :
    Cuts s ls r := by
  generalize hu : s ++ t = u at h
  generalize hv : r ++ t = v at h
  induction h generalizing s with
  | done =>
    subst hv
    obtain rfl := List.append_cancel_right hu
    exact .done
  | @token u w v l ls ht h ih =>
    subst hv hu
    have hw : w = (sources ls ++ r) ++ t := by rw [h.eq_append, List.append_assoc]
    subst hw
    refine .token ?_ (ih rfl rfl)
    obtain ⟨e, hl⟩ := token?_eq_some_iff.1 ht
    rw [← List.append_assoc] at e
    exact token?_eq_some_iff.2 ⟨List.append_cancel_right e, hl⟩
  | @plain c w v ls ht h ih =>
    subst hv
    have hw : w = (sources ls ++ r) ++ t := by rw [h.eq_append, List.append_assoc]
    subst hw
    obtain rfl : s = c :: (sources ls ++ r) := List.append_cancel_right hu
    refine .plain ?_ (ih rfl rfl)
    rw [Option.eq_none_iff_forall_ne_some]
    intro p hp
    have ha := token?_append hp t
    rw [List.cons_append, ht] at ha
    cases ha

theorem Cuts.alone {s r : Text} {ls : List Lexeme} (h : Cuts s ls r) : Cuts (sources ls) ls [] := by
  have hs : Cuts (sources ls ++ r) ls ([] ++ r) := h.eq_append ▸ h
  exact hs.of_append

/-- How many of the template's own templates are open behind the lexemes. A close tag too many,
which would end the template itself, leaves no such number. -/
def depthAfter : Nat → List Lexeme → Option Nat
  | depth, [] => some depth
  | 0, .closing _ :: _ => none
  | depth + 1, .closing _ :: ls => depthAfter depth ls
  | depth, .opening inside :: ls =>
    depthAfter (if isSelfClosing inside then depth else depth + 1) ls
  | depth, _ :: ls => depthAfter depth ls

theorem untilBalanced_eq_some_iff {depth : Nat} {ls ms rest : List Lexeme} {gap : Text} :
    untilBalanced depth ls = some (ms, gap, rest) ↔
      ls = ms ++ .closing gap :: rest ∧ depthAfter depth ms = some 0 := by
  constructor
  · intro h
    refine ⟨untilBalanced_sound h, ?_⟩
    fun_induction untilBalanced depth ls generalizing ms with
    | case1 => cases h
    | case2 => cases h; rfl
    | case3 | case4 =>
      rename_i ih
      obtain ⟨⟨a, b⟩, hr, e⟩ := Option.map_eq_some_iff.1 h
      cases e
      simpa [depthAfter] using ih hr
    | case5 depth l ls _ _ _ ih =>
      obtain ⟨⟨a, b⟩, hr, e⟩ := Option.map_eq_some_iff.1 h
      cases e
      cases l <;> simp_all [depthAfter]
  · intro h
    obtain ⟨rfl, h⟩ := h
    fun_induction depthAfter depth ms with
    | case1 depth => cases h; rfl
    | case2 => cases h
    | case3 depth _ ms ih => simp [untilBalanced, ih h]
    | case4 depth inside ms ih => simp only [List.cons_append, untilBalanced, ih h, Option.map_some]
    | case5 depth l ms _ _ _ ih =>
      cases l <;> simp_all [untilBalanced]

/-- Standing in front of `tail` changes nothing: no token of the content runs on behind it. -/
def Undisturbed (content tail : Text) : Prop :=
  ofText (content ++ tail) = ofText content ++ ofText tail

theorem Undisturbed.of_append {content u t : Text} (h : Undisturbed content (u ++ t)) :
    Undisturbed content u := by
  obtain ⟨r, hr, he⟩ := cuts_of_ofText h
  obtain rfl : r = u ++ t := by rw [← sources_ofText r, he, sources_ofText]
  rw [← List.append_assoc] at hr
  exact hr.of_append.ofText_eq

theorem ofText_closeTag {gap : Text} (hg : CloseTag.IsGap gap) (r : Text) :
    ofText (CloseTag.source kind gap ++ r) = .closing gap :: ofText r :=
  ofText_of_token? (token?_eq_some_iff.2 ⟨rfl, hg⟩)

def between : List Lexeme → List Text
  | [] => [[]]
  | .plain c :: ls =>
    match between ls with
    | [] => [[c]]
    | s :: ss => (c :: s) :: ss
  | _ :: ls => [] :: between ls

/-- A token that has begun. Whether it is one is decided where it ends. -/
def Begins (s : Text) : Prop :=
  Comment.opener <+: s ∨ ∃ t, s = opener ++ t ∧ endsName t = true

instance : DecidablePred Begins := fun s =>
  decidable_of_iff (Comment.opener <+: s ∨ (opener.isPrefixOf? s).any endsName = true) <| by
    simp only [Begins, Option.any_eq_true, List.isPrefixOf?_eq_some_iff_append_eq,
      @eq_comm Text _ s]

/-- Nothing between the tokens of the content begins a token. -/
def Complete (content : Text) : Prop :=
  ∀ s ∈ between (ofText content), ∀ t, t <:+ s → ¬ Begins t

instance : DecidablePred Complete := fun content =>
  decidable_of_iff (∀ s ∈ between (ofText content), ∀ t ∈ s.tails, ¬ Begins t) <| by
    simp only [Complete, List.mem_tails]

def SelfContained (content : Text) : Prop :=
  depthAfter 0 (ofText content) = some 0 ∧ Complete content

instance : DecidablePred SelfContained := fun content =>
  inferInstanceAs (Decidable (depthAfter 0 (ofText content) = some 0 ∧ Complete content))

theorem between_eq_cons (ls : List Lexeme) :
    ∃ v vs t, between ls = v :: vs ∧ sources ls = v ++ t ∧ (t = [] ∨ ∃ r, t = '<' :: r) := by
  induction ls with
  | nil => exact ⟨[], [], [], rfl, rfl, .inl rfl⟩
  | cons l ls ih =>
    obtain ⟨v, vs, t, hb, hs, ht⟩ := ih
    cases l with
    | plain c => exact ⟨c :: v, vs, t, by simp [between, hb], by simp [source, hs], ht⟩
    | comment body =>
      exact ⟨[], between ls, sources (.comment body :: ls), rfl, rfl, .inr ⟨_, rfl⟩⟩
    | opening inside =>
      exact ⟨[], between ls, sources (.opening inside :: ls), rfl, rfl, .inr ⟨_, rfl⟩⟩
    | closing gap =>
      exact ⟨[], between ls, sources (.closing gap :: ls), rfl, rfl, .inr ⟨_, rfl⟩⟩

theorem isPrefix_of_append_eq {w v t u : Text} (hw : '<' ∉ w.tail) (hv : v ≠ [])
    (h : v ++ '<' :: t = w ++ u) : w <+: v := by
  rcases List.append_eq_append_iff.1 h with ⟨a, rfl, ha⟩ | ⟨a, rfl, _⟩
  · cases a with
    | nil => exact ⟨[], by simp⟩
    | cons c a =>
      obtain ⟨d, v, rfl⟩ := List.exists_cons_of_ne_nil hv
      obtain rfl := (List.cons.inj ha).1
      exact absurd (by simp) hw
  · exact List.prefix_append w a

theorem IsToken.begins_or_closing {l : Lexeme} (hl : l.IsToken) {v t u : Text} (hv : v ≠ [])
    (h : v ++ '<' :: t = l.source ++ u) :
    Begins v ∨ ∃ gap, l = .closing gap ∧ l.source <+: v := by
  cases l with
  | plain => cases hl
  | comment body =>
    have h : v ++ '<' :: t = Comment.opener ++ (body ++ Comment.closer ++ u) := by
      simpa [source, Comment.source] using h
    exact .inl (.inl (isPrefix_of_append_eq (by decide) hv h))
  | opening inside =>
    obtain ⟨d, rest, hd⟩ := List.exists_cons_of_ne_nil (show inside ++ ['>'] ≠ [] by simp)
    have he : endsName (d :: rest) = true := hd ▸ hl.2
    have hlt : '<' ≠ d := fun e => by rw [← e] at he; cases he
    have h : v ++ '<' :: t = (opener ++ [d]) ++ (rest ++ u) := by
      rw [h, source, List.append_assoc opener, hd]
      simp
    have hw : '<' ∉ (opener ++ [d]).tail := by
      change '<' ∉ kind ++ [d]
      rw [List.mem_append, List.mem_singleton, not_or]
      exact ⟨by decide, hlt⟩
    obtain ⟨r, hr⟩ := isPrefix_of_append_eq hw hv h
    exact .inl (.inr ⟨d :: r, by rw [← hr]; simp, he⟩)
  | closing gap =>
    have hw : '<' ∉ '/' :: kind ++ gap ++ ['>'] := by
      rw [List.mem_append, List.mem_append, not_or, not_or]
      exact ⟨⟨by decide, fun hm => absurd (hl '<' hm) (by decide)⟩, by decide⟩
    exact .inr ⟨gap, rfl, isPrefix_of_append_eq hw hv h⟩

theorem token?_eq_none_of_not_begins {v s t : Text} (hv : v ≠ []) (hb : ¬ Begins v)
    (hs : s = [] ∨ ∃ r, s = '<' :: r) (hn : token? (v ++ s) = none) :
    token? (v ++ s ++ '<' :: t) = none := by
  rw [Option.eq_none_iff_forall_ne_some]
  intro p h
  obtain ⟨l, u⟩ := p
  obtain ⟨e, hl⟩ := token?_eq_some_iff.1 h
  obtain ⟨r, hr⟩ : ∃ r, v ++ s ++ '<' :: t = v ++ '<' :: r := by
    rcases hs with rfl | ⟨r, rfl⟩
    · exact ⟨t, by simp⟩
    · exact ⟨r ++ '<' :: t, by simp⟩
  rcases hl.begins_or_closing hv (hr ▸ e) with h | ⟨gap, rfl, w, rfl⟩
  · exact hb h
  · rw [List.append_assoc, token?_eq_some_iff.2 ⟨rfl, hl⟩] at hn
    cases hn

theorem Cuts.before_lt {s : Text} {ls : List Lexeme} (h : Cuts s ls [])
    (hc : ∀ b ∈ between ls, ∀ v, v <:+ b → ¬ Begins v) (t : Text) :
    Cuts (s ++ '<' :: t) ls ('<' :: t) := by
  generalize hr : ([] : Text) = r at h
  induction h with
  | done => subst hr; exact .done
  | @token s u r l ls ht _ ih =>
    refine .token (token?_append ht _) (ih (fun b hb => hc b ?_) hr)
    cases l with
    | plain c => exact absurd (token?_eq_some_iff.1 ht).2 id
    | comment | opening | closing => exact List.mem_cons_of_mem _ hb
  | @plain c s r ls ht h ih =>
    -- A token that is read here once more text follows would begin in the plain run `c :: v`.
    subst hr
    obtain ⟨v, vs, w, hb, hs, hw⟩ := between_eq_cons ls
    have hbc : between (.plain c :: ls) = (c :: v) :: vs := by simp [between, hb]
    rw [hbc] at hc
    have hn : token? (c :: s ++ '<' :: t) = none := by
      have e : c :: s = (c :: v) ++ w := by rw [h.eq_append, hs]; simp
      rw [e] at ht ⊢
      exact token?_eq_none_of_not_begins (by simp) (hc _ (by simp) _ List.suffix_rfl) hw ht
    refine .plain hn (ih (fun b hmem u hu => ?_) rfl)
    rw [hb] at hmem
    rcases List.mem_cons.1 hmem with rfl | hmem
    · exact hc _ (by simp) u (hu.trans (List.suffix_cons c b))
    · exact hc b (by simp [hmem]) u hu

theorem Complete.undisturbed {content : Text} (h : Complete content) (t : Text) :
    Undisturbed content ('<' :: t) := by
  obtain ⟨r, hr, he⟩ := cuts_of_ofText (show ofText content = ofText content ++ [] by simp)
  have hnil : r = [] := by rw [← sources_ofText r, he, sources_nil]
  subst hnil
  exact (hr.before_lt h t).ofText_eq

end Lexeme

theorem templateEnd?_eq_some_iff {s content gap r : Text} :
    templateEnd? s = some (content, gap, r) ↔
      s = content ++ CloseTag.source Lexeme.kind gap ++ r ∧ CloseTag.IsGap gap ∧
        Lexeme.depthAfter 0 (Lexeme.ofText content) = some 0 ∧
          Lexeme.Undisturbed content (CloseTag.source Lexeme.kind gap ++ r) := by
  constructor
  · intro h
    have hs := templateEnd?_sound h
    obtain ⟨⟨ls, g, rest⟩, hb, e⟩ := Option.map_eq_some_iff.1 h
    cases e
    obtain ⟨hl, hd⟩ := Lexeme.untilBalanced_eq_some_iff.1 hb
    obtain ⟨t, ht, hr⟩ := Lexeme.cuts_of_ofText hl
    have hc : Lexeme.ofText (Lexeme.sources ls) = ls := by
      simpa [Lexeme.ofText] using ht.alone.ofText_eq
    have hr : Lexeme.ofText t = [.closing gap] ++ rest := hr
    obtain ⟨r, hcut, hrest⟩ := Lexeme.cuts_of_ofText hr
    cases hcut with
    | token htok hdone =>
      cases hdone
      obtain ⟨rfl, hg⟩ := Lexeme.token?_eq_some_iff.1 htok
      have hr : Lexeme.sources rest = r := by rw [← hrest, Lexeme.sources_ofText]
      refine ⟨hs, hg, by rwa [hc], ?_⟩
      rw [hr, Lexeme.Undisturbed, hc]
      exact ht.eq_append ▸ ht.ofText_eq
  · intro h
    obtain ⟨rfl, hg, hd, hu⟩ := h
    have hl : Lexeme.ofText (content ++ CloseTag.source Lexeme.kind gap ++ r) =
        Lexeme.ofText content ++ .closing gap :: Lexeme.ofText r := by
      rw [List.append_assoc, hu, Lexeme.ofText_closeTag hg]
    have hb := Lexeme.untilBalanced_eq_some_iff.2 ⟨hl, hd⟩
    simp only [templateEnd?, hb, Option.map_some, Lexeme.sources_ofText]

end SfcTheme

import SfcTheme.Text

/-!
UTF-8, and where octets stop being UTF-8. A fault names the octets of the character that was begun
and cannot be finished, so it never names an octet that could start the next character. Main
statement: decoding undoes encoding.
-/

set_option autoImplicit false

namespace SfcTheme.Text.Utf8

inductive Cause where
  | start | continuation | truncated
  deriving DecidableEq, Repr

/-- The octets at offsets `first` to `last` form no character. The one at `first` is `lead`. -/
structure Fault where
  first : Nat
  last : Nat
  lead : Nat
  cause : Cause
  deriving DecidableEq, Repr

/-- A character in the middle of its octets: what they give so far, how many are owed, and the
bounds on the next one. -/
structure Partial where
  first : Nat
  lead : Nat
  code : Nat
  owed : Nat
  low : Nat
  high : Nat
  deriving DecidableEq, Repr

/-- The bounds on a second octet keep out long forms, surrogates and what lies past U+10FFFF. -/
def Partial.begin? (offset lead : Nat) : Option Partial :=
  if lead < 0xC2 then none
  else if lead < 0xE0 then some ⟨offset, lead, lead - 0xC0, 1, 0x80, 0xBF⟩
  else if lead < 0xF0 then
    some ⟨offset, lead, lead - 0xE0, 2, if lead = 0xE0 then 0xA0 else 0x80,
      if lead = 0xED then 0x9F else 0xBF⟩
  else if lead < 0xF5 then
    some ⟨offset, lead, lead - 0xF0, 3, if lead = 0xF0 then 0x90 else 0x80,
      if lead = 0xF4 then 0x8F else 0xBF⟩
  else none

def Partial.push (p : Partial) (octet : Nat) : Partial :=
  ⟨p.first, p.lead, p.code * 64 + (octet - 0x80), p.owed - 1, 0x80, 0xBF⟩

def decodeFrom (offset : Nat) : Option Partial → List UInt8 → Except Fault Text
  | none, [] => .ok []
  | some p, [] => .error ⟨p.first, offset - 1, p.lead, .truncated⟩
  | none, b :: bs =>
    if b.toNat < 0x80 then (decodeFrom (offset + 1) none bs).map (Char.ofNat b.toNat :: ·)
    else match Partial.begin? offset b.toNat with
      | none => .error ⟨offset, offset, b.toNat, .start⟩
      | some p => decodeFrom (offset + 1) (some p) bs
  | some p, b :: bs =>
    if p.low ≤ b.toNat ∧ b.toNat ≤ p.high then
      let q := p.push b.toNat
      if q.owed = 0 then (decodeFrom (offset + 1) none bs).map (Char.ofNat q.code :: ·)
      else decodeFrom (offset + 1) (some q) bs
    else .error ⟨p.first, offset - 1, p.lead, .continuation⟩

def decode (octets : List UInt8) : Except Fault Text := decodeFrom 0 none octets

def encode (s : Text) : List UInt8 := s.flatMap String.utf8EncodeChar

theorem decodeFrom_lead {k : Nat} {b : UInt8} {bs : List UInt8} {p : Partial} (h : ¬ b.toNat < 0x80)
    (hp : Partial.begin? k b.toNat = some p) :
    decodeFrom k none (b :: bs) = decodeFrom (k + 1) (some p) bs := by
  simp [decodeFrom, h, hp]

theorem decodeFrom_inner {k : Nat} {p : Partial} {b : UInt8} {bs : List UInt8}
    (hb : p.low ≤ b.toNat ∧ b.toNat ≤ p.high) (ho : 1 < p.owed) :
    decodeFrom k (some p) (b :: bs) = decodeFrom (k + 1) (some (p.push b.toNat)) bs := by
  have : p.owed - 1 ≠ 0 := by omega
  simp [decodeFrom, hb, Partial.push, this]

theorem decodeFrom_final {k n : Nat} {p : Partial} {b : UInt8} {bs : List UInt8}
    (hb : p.low ≤ b.toNat ∧ b.toNat ≤ p.high) (ho : p.owed = 1)
    (hn : p.code * 64 + (b.toNat - 0x80) = n) :
    decodeFrom k (some p) (b :: bs) = (decodeFrom (k + 1) none bs).map (Char.ofNat n :: ·) := by
  simp [decodeFrom, hb, Partial.push, ho, hn]

theorem decodeFrom_encodeChar (c : Char) (k : Nat) (bs : List UInt8) :
    ∃ k', decodeFrom k none (String.utf8EncodeChar c ++ bs) =
      (decodeFrom k' none bs).map (c :: ·) := by
  have hv : c.val.toNat < 0xD800 ∨ (0xDFFF < c.val.toNat ∧ c.val.toNat < 0x110000) := c.valid
  have hc : Char.ofNat c.val.toNat = c := Char.ofNat_toNat c
  rw [String.utf8EncodeChar]
  generalize c.val.toNat = n at *
  have octet {m v : Nat} (h : m = v) (hv : v < 256) : (UInt8.ofNat m).toNat = v := by
    subst h
    exact UInt8.toNat_ofNat_of_lt' hv
  have tail (m : Nat) : (UInt8.ofNat (m % 64 + 0x80)).toNat = m % 64 + 0x80 :=
    octet rfl (by omega)
  by_cases h1 : n ≤ 0x7F
  · have hl : n < 0x80 := by omega
    exact ⟨k + 1, by simp [h1, hl, decodeFrom, Nat.mod_eq_of_lt (show n < 256 by omega), hc]⟩
  by_cases h2 : n ≤ 0x7FF
  · refine ⟨k + 2, ?_⟩
    have hl : (UInt8.ofNat (n / 64 % 0x20 + 0xC0)).toNat = 0xC0 + n / 64 :=
      octet (by omega) (by omega)
    simp only [h1, h2, if_true, if_false, List.cons_append, List.nil_append]
    rw [decodeFrom_lead (p := ⟨k, 0xC0 + n / 64, n / 64, 1, 0x80, 0xBF⟩) (by omega),
      decodeFrom_final (n := n) _ rfl _, hc]
    · rw [tail]; simp; omega
    · rw [tail]; simp; omega
    · rw [hl, Partial.begin?, if_neg (by omega), if_pos (by omega)]; simp
  by_cases h3 : n ≤ 0xFFFF
  · refine ⟨k + 3, ?_⟩
    have hl : (UInt8.ofNat (n / 4096 % 0x10 + 0xE0)).toNat = 0xE0 + n / 4096 :=
      octet (by omega) (by omega)
    simp only [h1, h2, h3, if_true, if_false, List.cons_append, List.nil_append]
    rw [decodeFrom_lead (p := ⟨k, 0xE0 + n / 4096, n / 4096, 2,
        if 0xE0 + n / 4096 = 0xE0 then 0xA0 else 0x80,
        if 0xE0 + n / 4096 = 0xED then 0x9F else 0xBF⟩) (by omega),
      decodeFrom_inner _ (by simp), decodeFrom_final (n := n) _ rfl _, hc]
    · simp only [Partial.push, tail]; omega
    · simp only [Partial.push, tail]; omega
    · simp only [tail]; split <;> split <;> omega
    · rw [hl, Partial.begin?, if_neg (by omega), if_neg (by omega), if_pos (by omega)]; simp
  · refine ⟨k + 4, ?_⟩
    have hl : (UInt8.ofNat (n / 262144 % 8 + 0xF0)).toNat = 0xF0 + n / 262144 :=
      octet (by omega) (by omega)
    simp only [h1, h2, h3, if_false, List.cons_append, List.nil_append]
    rw [decodeFrom_lead (p := ⟨k, 0xF0 + n / 262144, n / 262144, 3,
        if 0xF0 + n / 262144 = 0xF0 then 0x90 else 0x80,
        if 0xF0 + n / 262144 = 0xF4 then 0x8F else 0xBF⟩) (by omega),
      decodeFrom_inner _ (by simp), decodeFrom_inner _ (by simp [Partial.push]),
      decodeFrom_final (n := n) _ rfl _, hc]
    · simp only [Partial.push, tail]; omega
    · simp only [Partial.push, tail]; omega
    · simp only [Partial.push, tail]; omega
    · simp only [tail]; split <;> split <;> omega
    · rw [hl, Partial.begin?, if_neg (by omega), if_neg (by omega), if_neg (by omega),
        if_pos (by omega)]; simp

theorem decodeFrom_encode (s : Text) (k : Nat) : decodeFrom k none (encode s) = .ok s := by
  induction s generalizing k with
  | nil => rfl
  | cons c s ih =>
    obtain ⟨k', h⟩ := decodeFrom_encodeChar c k (encode s)
    rw [show encode (c :: s) = String.utf8EncodeChar c ++ encode s from rfl, h, ih]
    rfl

theorem decode_encode (s : Text) : decode (encode s) = .ok s := decodeFrom_encode s 0

example : decode [0x61, 0xE2, 0x82] = .error ⟨1, 2, 0xE2, .truncated⟩ := rfl
example : decode [0xED, 0xA0, 0x80] = .error ⟨0, 0, 0xED, .continuation⟩ := rfl
example : decode [0xC0, 0xAF] = .error ⟨0, 0, 0xC0, .start⟩ := rfl

def Cause.message : Cause → Text
  | .start => "invalid start byte"
  | .continuation => "invalid continuation byte"
  | .truncated => "unexpected end of data"

def Fault.message (f : Fault) : Text :=
  let range : Text :=
    if f.first = f.last then
      "byte 0x" ++ Nat.toDigits 16 f.lead ++ " in position " ++ ofNat f.first
    else "bytes in position " ++ ofNat f.first ++ "-" ++ ofNat f.last
  "'utf-8' codec can't decode " ++ range ++ ": " ++ f.cause.message

end SfcTheme.Text.Utf8

/-
Reading back what was encoded.

The bytes of a character are its code point in base 64, the highest digit with the mark of how many digits
follow. Decoding collects the digits again, and the ranges that it sets for the second byte let through every
digit that a character can have there: what they keep out are overlong forms, surrogates, and code points
beyond the last one. So an encoded text is decoded to itself, from whatever position on.

Nothing else is decoded. While a character is pending, the bytes read of it begin the bytes of every character that
the bytes to come can make of it (`Begins`): the first byte and its range see to that, and each further byte keeps
it. So what is decoded to a text is what the text is encoded to (`decode_eq_ok_iff`). The encoding is the standard
one, with which Lean keeps its strings (`isValidUTF8_iff`).
-/
import Mathlib.Data.List.Basic
import SemiThue.Text.Utf8

set_option autoImplicit false

namespace SemiThue.Utf8

/-- The code point of a character is no surrogate and not beyond the last one. -/
theorem toNat_valid (c : Char) : c.toNat < 0xD800 ∨ 0xDFFF < c.toNat ∧ c.toNat < 0x110000 := c.valid

/-- A number below 256 is the value of its byte. -/
theorem toNat_byte {k : Nat} (small : k < 256) : (UInt8.ofNat k).toNat = k :=
  UInt8.toNat_ofNat_of_lt' small

/-! ## First bytes -/

/-- The first of two bytes. -/
theorem lead_of_two {n : Nat} (least : 0x80 ≤ n) (most : n < 0x800) :
    lead (0xC0 + n / 64) = .opens (n / 64) (0x80, 0xBF) 0 := by
  have low : ¬0xC0 + n / 64 < 0xC2 := by omega
  have high : 0xC0 + n / 64 < 0xE0 := by omega
  rw [lead, if_neg (by omega), if_neg low, if_pos high, Nat.add_sub_cancel_left]

/-- The first of three bytes. The second one is in the range that is set for it. -/
theorem lead_of_three {n : Nat} (least : 0x800 ≤ n) (most : n < 0x10000)
    (valid : n < 0xD800 ∨ 0xDFFF < n) : ∃ next : Nat × Nat,
      lead (0xE0 + n / 4096) = .opens (n / 4096) next 1 ∧
        next.1 ≤ 0x80 + n / 64 % 64 ∧ 0x80 + n / 64 % 64 ≤ next.2 := by
  have above : ¬0xE0 + n / 4096 < 0xE0 := by omega
  have below : 0xE0 + n / 4096 < 0xF0 := by omega
  rw [lead, if_neg (by omega), if_neg (by omega), if_neg above]
  by_cases first : n / 4096 = 0
  · -- smaller code points have a shorter form
    rw [if_pos (by omega), first]
    exact ⟨_, rfl, by simp only; omega, by simp only; omega⟩
  · rw [if_neg (by omega)]
    by_cases surrogate : n / 4096 = 0xD
    · rw [if_pos (by omega), surrogate]
      exact ⟨_, rfl, by simp only; omega, by simp only; omega⟩
    · rw [if_neg (by omega), if_pos below, Nat.add_sub_cancel_left]
      exact ⟨_, rfl, by simp only; omega, by simp only; omega⟩

/-- The first of four bytes. The second one is in the range that is set for it. -/
theorem lead_of_four {n : Nat} (least : 0x10000 ≤ n) (most : n < 0x110000) : ∃ next : Nat × Nat,
      lead (0xF0 + n / 262144) = .opens (n / 262144) next 2 ∧
        next.1 ≤ 0x80 + n / 4096 % 64 ∧ 0x80 + n / 4096 % 64 ≤ next.2 := by
  have above : ¬0xF0 + n / 262144 < 0xF0 := by omega
  rw [lead, if_neg (by omega), if_neg (by omega), if_neg (by omega), if_neg (by omega), if_neg (by omega),
    if_neg above]
  by_cases first : n / 262144 = 0
  · rw [if_pos (by omega), first]
    exact ⟨_, rfl, by simp only; omega, by simp only; omega⟩
  · rw [if_neg (by omega)]
    by_cases last : n / 262144 = 4
    · rw [if_neg (by omega), if_pos (by omega), last]
      exact ⟨_, rfl, by simp only; omega, by simp only; omega⟩
    · rw [if_pos (by omega), Nat.add_sub_cancel_left]
      exact ⟨_, rfl, by simp only; omega, by simp only; omega⟩

/-! ## Further bytes -/

section Decoding

variable {k pos bits more : Nat} {b : UInt8} {start : Nat} {next : Nat × Nat} {rest : List UInt8}

/-- A byte that begins a longer character. -/
theorem decodeFrom_opens (small : k < 256) (opens : lead k = .opens bits next more) :
    decodeFrom pos none (UInt8.ofNat k :: rest) =
      decodeFrom (pos + 1) (some ⟨UInt8.ofNat k, pos, bits, next, more⟩) rest := by
  simp only [decodeFrom, toNat_byte small, opens]

/-- A byte in the middle of a character adds a digit. -/
theorem decodeFrom_digit {d : Nat} (digit : d < 64) (low : next.1 ≤ 0x80 + d) (high : 0x80 + d ≤ next.2) :
    decodeFrom pos (some ⟨b, start, bits, next, more + 1⟩) (UInt8.ofNat (0x80 + d) :: rest) =
      decodeFrom (pos + 1) (some ⟨b, start, bits * 64 + d, (0x80, 0xBF), more⟩) rest := by
  simp only [decodeFrom, toNat_byte (show 0x80 + d < 256 by omega), low, high, and_self, if_true,
    Nat.add_sub_cancel_left]

/-- The last byte of a character adds the last digit. -/
theorem decodeFrom_last {d : Nat} (digit : d < 64) (low : next.1 ≤ 0x80 + d) (high : 0x80 + d ≤ next.2) :
    decodeFrom pos (some ⟨b, start, bits, next, 0⟩) (UInt8.ofNat (0x80 + d) :: rest) =
      (decodeFrom (pos + 1) none rest).map (Char.ofNat (bits * 64 + d) :: ·) := by
  simp only [decodeFrom, toNat_byte (show 0x80 + d < 256 by omega), low, high, and_self, if_true,
    Nat.add_sub_cancel_left]

end Decoding

/-! ## Round trip -/

/-- **The bytes of a character are decoded to the character.** -/
theorem decodeFrom_encodeChar (c : Char) (pos : Nat) (rest : List UInt8) : ∃ pos',
    decodeFrom pos none (encodeChar c ++ rest) = (decodeFrom pos' none rest).map (c :: ·) := by
  have valid := toNat_valid c
  have same : Char.ofNat c.toNat = c := Char.ofNat_toNat c
  simp only [encodeChar]
  generalize c.toNat = n at valid same
  have digit (m : Nat) : m % 64 < 64 := Nat.mod_lt m (by decide)
  by_cases one : n < 0x80
  · refine ⟨pos + 1, ?_⟩
    have whole : lead n = .whole n := if_pos one
    rw [if_pos one, List.singleton_append]
    simp only [decodeFrom, toNat_byte (show n < 256 by omega), whole, same]
  · rw [if_neg one]
    by_cases two : n < 0x800
    · refine ⟨pos + 2, ?_⟩
      rw [if_pos two, List.cons_append, List.singleton_append,
        decodeFrom_opens (by omega) (lead_of_two (by omega) two),
        decodeFrom_last (digit n) (by simp only; omega) (by simp only; omega), Nat.div_add_mod', same]
    · rw [if_neg two]
      by_cases three : n < 0x10000
      · refine ⟨pos + 3, ?_⟩
        obtain ⟨next, opens, low, high⟩ := lead_of_three (by omega) three (by omega)
        rw [if_pos three, List.cons_append, List.cons_append, List.singleton_append,
          decodeFrom_opens (by omega) opens, decodeFrom_digit (digit _) low high,
          decodeFrom_last (digit n) (by simp only; omega) (by simp only; omega)]
        have digits : (n / 4096 * 64 + n / 64 % 64) * 64 + n % 64 = n := by omega
        rw [digits, same]
      · refine ⟨pos + 4, ?_⟩
        obtain ⟨next, opens, low, high⟩ := lead_of_four (n := n) (by omega) (by omega)
        rw [if_neg three, List.cons_append, List.cons_append, List.cons_append, List.singleton_append,
          decodeFrom_opens (by omega) opens, decodeFrom_digit (digit _) low high,
          decodeFrom_digit (digit _) (by simp only; omega) (by simp only; omega),
          decodeFrom_last (digit n) (by simp only; omega) (by simp only; omega)]
        have digits :
            ((n / 262144 * 64 + n / 4096 % 64) * 64 + n / 64 % 64) * 64 + n % 64 = n := by omega
        rw [digits, same]

theorem decodeFrom_encode (t : Text) (pos : Nat) : decodeFrom pos none (encode t) = .ok t := by
  induction t generalizing pos with
  | nil => rfl
  | cons c t ih =>
    obtain ⟨pos', head⟩ := decodeFrom_encodeChar c pos (encode t)
    rw [encode, List.flatMap_cons]
    refine head.trans ?_
    rw [ih]
    rfl

/-- **An encoded text is decoded to itself.** -/
theorem decode_encode (t : Text) : decode (encode t) = .ok t := decodeFrom_encode t 0

/-! ## Only encoded texts are decoded -/

/-- The code point of a character made of a valid one. -/
theorem toNat_ofNat_of_valid {n : Nat} (valid : n < 0xD800 ∨ 0xDFFF < n ∧ n < 0x110000) :
    (Char.ofNat n).toNat = n := by
  have valid' : n.isValidChar := valid
  rw [Char.ofNat, dif_pos valid']
  exact UInt32.toNat_ofNatLT ..

theorem ofNat_eq_of_toNat {k : Nat} {b : UInt8} (same : k = b.toNat) : UInt8.ofNat k = b := by
  rw [same, UInt8.ofNat_toNat]

/-- **What a character that is begun may become.** These bits of its code point and these bytes were read, and so
many bytes are to come after the next one, which is in the given range. Whatever they are, the bytes are those of
the character that the bits make up. -/
def Begins (read : List UInt8) (bits : Nat) (next : Nat × Nat) : (more : Nat) → Prop
  | 0 => ∀ b : UInt8, next.1 ≤ b.toNat → b.toNat ≤ next.2 →
    encodeChar (Char.ofNat (bits * 64 + (b.toNat - 0x80))) = read ++ [b]
  | more + 1 => ∀ b : UInt8, next.1 ≤ b.toNat → b.toNat ≤ next.2 →
    Begins (read ++ [b]) (bits * 64 + (b.toNat - 0x80)) (0x80, 0xBF) more

/-- A byte that is a character is the only one of it. -/
theorem encodeChar_of_lead_whole {b : UInt8} {code : Nat} (whole : lead b.toNat = .whole code) :
    encodeChar (Char.ofNat code) = [b] := by
  unfold lead at whole
  split at whole
  · rename_i one
    cases whole
    simp only [encodeChar, toNat_ofNat_of_valid (n := b.toNat) (by omega), if_pos one, UInt8.ofNat_toNat]
  · split_ifs at whole

/-- Behind the first of two bytes. -/
theorem begins_two {b : UInt8} (least : 0xC2 ≤ b.toNat) (most : b.toNat < 0xE0) :
    Begins [b] (b.toNat - 0xC0) (0x80, 0xBF) 0 := by
  intro c low high
  simp only at low high
  have point := toNat_ofNat_of_valid (n := (b.toNat - 0xC0) * 64 + (c.toNat - 0x80)) (by omega)
  simp only [encodeChar, point]
  rw [if_neg (by omega), if_pos (by omega), ofNat_eq_of_toNat (b := b) (by omega),
    ofNat_eq_of_toNat (b := c) (by omega)]
  rfl

/-- Behind the first of three bytes, if the range for the second one keeps out overlong forms and surrogates. -/
theorem begins_three {b : UInt8} {bits : Nat} {next : Nat × Nat} (first : b.toNat = 0xE0 + bits)
    (few : bits < 0x10) (least : 0x80 ≤ next.1) (most : next.2 ≤ 0xBF)
    (valid : ∀ d, next.1 ≤ 0x80 + d → 0x80 + d ≤ next.2 →
      0x20 ≤ bits * 64 + d ∧ (bits * 64 + d < 0x360 ∨ 0x380 ≤ bits * 64 + d)) :
    Begins [b] bits next 1 := by
  intro c low high c' low' high'
  simp only at low' high'
  have := valid (c.toNat - 0x80) (by omega) (by omega)
  have point := toNat_ofNat_of_valid (n := (bits * 64 + (c.toNat - 0x80)) * 64 + (c'.toNat - 0x80)) (by omega)
  simp only [encodeChar, point]
  rw [if_neg (by omega), if_neg (by omega), if_pos (by omega), ofNat_eq_of_toNat (b := b) (by omega),
    ofNat_eq_of_toNat (b := c) (by omega), ofNat_eq_of_toNat (b := c') (by omega)]
  rfl

/-- Behind the first of four bytes, if the range for the second one keeps out overlong forms and what is beyond the last
code point. -/
theorem begins_four {b : UInt8} {bits : Nat} {next : Nat × Nat} (first : b.toNat = 0xF0 + bits)
    (least : 0x80 ≤ next.1) (most : next.2 ≤ 0xBF)
    (valid : ∀ d, next.1 ≤ 0x80 + d → 0x80 + d ≤ next.2 → 0x10 ≤ bits * 64 + d ∧ bits * 64 + d < 0x110) :
    Begins [b] bits next 2 := by
  intro c low high c' low' high' c'' low'' high''
  simp only at low' high' low'' high''
  have := valid (c.toNat - 0x80) (by omega) (by omega)
  have point := toNat_ofNat_of_valid
    (n := ((bits * 64 + (c.toNat - 0x80)) * 64 + (c'.toNat - 0x80)) * 64 + (c''.toNat - 0x80)) (by omega)
  simp only [encodeChar, point]
  rw [if_neg (by omega), if_neg (by omega), if_neg (by omega), ofNat_eq_of_toNat (b := b) (by omega),
    ofNat_eq_of_toNat (b := c) (by omega), ofNat_eq_of_toNat (b := c') (by omega),
    ofNat_eq_of_toNat (b := c'') (by omega)]
  rfl

/-- **A first byte sets the range that its character needs.** -/
theorem begins_of_lead {b : UInt8} {bits more : Nat} {next : Nat × Nat}
    (opens : lead b.toNat = .opens bits next more) : Begins [b] bits next more := by
  unfold lead at opens
  split_ifs at opens with one bad two e0 ed three f0 four f4 <;>
    obtain ⟨rfl, rfl, rfl⟩ := Lead.opens.inj opens
  · exact begins_two (by omega) two
  · exact begins_three e0 (by decide) (by simp) (by simp) fun d low _ => ⟨by simp only at low; omega, by omega⟩
  · exact begins_three ed (by decide) (by simp) (by simp) (by simp only; omega)
  · exact begins_three (by omega) (by omega) (by simp) (by simp) (by simp only; omega)
  · exact begins_four f0 (by simp) (by simp) (by simp only; omega)
  · exact begins_four (by omega) (by simp) (by simp) (by simp only; omega)
  · exact begins_four f4 (by simp) (by simp) (by simp only; omega)

/-- The bytes read of the character that is pending, if there is one. -/
def Reads (read : List UInt8) : Option Pending → Prop
  | none => read = []
  | some p => Begins read p.bits p.next p.more

theorem reads_none : Reads [] none := rfl

theorem exists_of_map_eq_ok {x : Except Flaw Text} {f : Text → Text} {t : Text} (h : x.map f = .ok t) :
    ∃ rest, x = .ok rest ∧ f rest = t := by
  cases x with
  | error flaw => cases h
  | ok rest => exact ⟨rest, rfl, Except.ok.inj h⟩

theorem encode_cons (c : Char) (t : Text) : encode (c :: t) = encodeChar c ++ encode t := by
  rw [encode, List.flatMap_cons, ← encode]

/-- What was read of a pending character and what is decoded behind it are the bytes of the text. -/
theorem encode_of_decodeFrom {pos : Nat} {pending : Option Pending} {read bytes : List UInt8} {t : Text}
    (reads : Reads read pending) (decoded : decodeFrom pos pending bytes = .ok t) :
    encode t = read ++ bytes := by
  induction bytes generalizing pos pending read t with
  | nil =>
    cases pending with
    | none =>
      obtain rfl : read = [] := reads
      obtain rfl : [] = t := Except.ok.inj decoded
      rfl
    | some p => cases decoded
  | cons b bytes ih =>
    cases pending with
    | none =>
      obtain rfl : read = [] := reads
      rw [decodeFrom] at decoded
      split at decoded
      · rename_i code whole
        obtain ⟨rest, decoded', rfl⟩ := exists_of_map_eq_ok decoded
        rw [encode_cons, ih reads_none decoded', encodeChar_of_lead_whole whole]
        rfl
      · rename_i bits next more opens
        have first : Reads [b] (some ⟨b, pos, bits, next, more⟩) := begins_of_lead opens
        exact ih first decoded
      · cases decoded
    | some p =>
      obtain ⟨first, start, bits, next, more⟩ := p
      rw [decodeFrom] at decoded
      split at decoded
      · rename_i within
        cases more with
        | zero =>
          obtain ⟨rest, decoded', rfl⟩ := exists_of_map_eq_ok decoded
          rw [encode_cons, ih reads_none decoded', reads b within.1 within.2]
          simp
        | succ more =>
          have further : Reads (read ++ [b])
              (some ⟨first, start, bits * 64 + (b.toNat - 0x80), (0x80, 0xBF), more⟩) :=
            reads b within.1 within.2
          rw [ih further decoded, List.append_assoc, List.singleton_append]
      · cases decoded

/-- **Bytes are decoded to a text exactly if they are its bytes.** -/
theorem decode_eq_ok_iff {bytes : List UInt8} {t : Text} : decode bytes = .ok t ↔ bytes = encode t := by
  constructor
  · intro decoded
    exact (encode_of_decodeFrom reads_none decoded).symm
  · rintro rfl
    exact decode_encode t

/-! ## Bytes that are a text -/

/-- The bytes of a character are the standard ones. -/
theorem encodeChar_eq_utf8EncodeChar (c : Char) : encodeChar c = String.utf8EncodeChar c := by
  have valid := toNat_valid c
  simp only [encodeChar, String.utf8EncodeChar, show c.val.toNat = c.toNat from rfl]
  generalize c.toNat = n at valid
  by_cases one : n < 0x80
  · rw [if_pos one, if_pos (show n ≤ 0x7F by omega)]
  · rw [if_neg one, if_neg (show ¬n ≤ 0x7F by omega)]
    by_cases two : n < 0x800
    · have first : 0xC0 + n / 64 = n / 64 % 0x20 + 0xC0 := by omega
      rw [if_pos two, if_pos (show n ≤ 0x7FF by omega), first, Nat.add_comm 0x80]
    · rw [if_neg two, if_neg (show ¬n ≤ 0x7FF by omega)]
      by_cases three : n < 0x10000
      · have first : 0xE0 + n / 4096 = n / 4096 % 0x10 + 0xE0 := by omega
        rw [if_pos three, if_pos (show n ≤ 0xFFFF by omega), first, Nat.add_comm 0x80, Nat.add_comm 0x80]
      · have first : 0xF0 + n / 262144 = n / 262144 % 0x08 + 0xF0 := by omega
        rw [if_neg three, if_neg (show ¬n ≤ 0xFFFF by omega), first, Nat.add_comm 0x80, Nat.add_comm 0x80,
          Nat.add_comm 0x80]

theorem utf8Encode_eq (t : Text) : t.utf8Encode = (encode t).toByteArray := by
  rw [List.utf8Encode, encode, funext encodeChar_eq_utf8EncodeChar]

/-- **Bytes are a text exactly if they are decoded.** -/
theorem isValidUTF8_iff {bytes : List UInt8} :
    bytes.toByteArray.IsValidUTF8 ↔ ∃ t, decode bytes = .ok t := by
  simp only [decode_eq_ok_iff]
  constructor
  · rintro ⟨t, same⟩
    exact ⟨t, List.toByteArray_inj.1 (same.trans (utf8Encode_eq t))⟩
  · rintro ⟨t, rfl⟩
    exact ⟨t, (utf8Encode_eq t).symm⟩

end SemiThue.Utf8

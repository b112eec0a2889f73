/-
UTF-8: texts as bytes, and bytes as texts.

Decoding looks at one byte at a time and remembers the character it is in the middle of: the bytes
still owed, each with the range it must lie in, and the bits collected so far. Overlong forms,
surrogates and code points beyond the last one are kept out by the range of the second byte alone. The
first byte that cannot be right ends the decoding, and the flaw says where the spoilt character began,
where it broke off, and why.
-/
import SemiThue.Text.Hex

set_option autoImplicit false

namespace SemiThue.Utf8

/-- Why bytes are no text. -/
inductive Reason where
  /-- A byte that begins no character. -/
  | invalidStart
  /-- A byte that does not continue the character before it. -/
  | invalidContinuation
  /-- The bytes end in the middle of a character. -/
  | unexpectedEnd
deriving DecidableEq, Repr

/-- The first place where bytes are no text. -/
structure Flaw where
  /-- The first byte of the spoilt character. -/
  byte : UInt8
  /-- The position of that byte. -/
  start : Nat
  /-- The position just past the last byte that belongs to the spoilt character. -/
  stop : Nat
  /-- What is wrong with it. -/
  reason : Reason
deriving DecidableEq, Repr

/-- A character of which some bytes are still to come. -/
structure Pending where
  /-- Its first byte. -/
  byte : UInt8
  /-- The position of its first byte. -/
  start : Nat
  /-- The bits of its code point read so far. -/
  bits : Nat
  /-- The range of the next byte. -/
  next : Nat × Nat
  /-- How many bytes are to come after the next one. -/
  more : Nat
deriving DecidableEq, Repr

/-- What a first byte announces. -/
inductive Lead where
  /-- A character of one byte. -/
  | whole (code : Nat)
  /-- A character with further bytes. -/
  | opens (bits : Nat) (next : Nat × Nat) (more : Nat)
  /-- No character begins with this byte. -/
  | bad
deriving DecidableEq, Repr

/-- The role of a byte at the beginning of a character. -/
def lead (b : Nat) : Lead :=
  if b < 0x80 then .whole b
  else if b < 0xC2 then .bad
  else if b < 0xE0 then .opens (b - 0xC0) (0x80, 0xBF) 0
  else if b = 0xE0 then .opens 0 (0xA0, 0xBF) 1
  else if b = 0xED then .opens 0xD (0x80, 0x9F) 1
  else if b < 0xF0 then .opens (b - 0xE0) (0x80, 0xBF) 1
  else if b = 0xF0 then .opens 0 (0x90, 0xBF) 2
  else if b < 0xF4 then .opens (b - 0xF0) (0x80, 0xBF) 2
  else if b = 0xF4 then .opens 4 (0x80, 0x8F) 2
  else .bad

/-- Decodes bytes from a position on, in the middle of a character or between two. -/
def decodeFrom : Nat → Option Pending → List UInt8 → Except Flaw Text
  | _, none, [] => .ok []
  | pos, some p, [] => .error ⟨p.byte, p.start, pos, .unexpectedEnd⟩
  | pos, none, b :: rest =>
    match lead b.toNat with
    | .whole code => (decodeFrom (pos + 1) none rest).map (Char.ofNat code :: ·)
    | .opens bits next more => decodeFrom (pos + 1) (some ⟨b, pos, bits, next, more⟩) rest
    | .bad => .error ⟨b, pos, pos + 1, .invalidStart⟩
  | pos, some p, b :: rest =>
    if p.next.1 ≤ b.toNat ∧ b.toNat ≤ p.next.2 then
      match p.more with
      | 0 => (decodeFrom (pos + 1) none rest).map (Char.ofNat (p.bits * 64 + (b.toNat - 0x80)) :: ·)
      | more + 1 =>
        decodeFrom (pos + 1)
          (some ⟨p.byte, p.start, p.bits * 64 + (b.toNat - 0x80), (0x80, 0xBF), more⟩) rest
    else .error ⟨p.byte, p.start, pos, .invalidContinuation⟩

/-- The text that bytes stand for. -/
def decode (bytes : List UInt8) : Except Flaw Text := decodeFrom 0 none bytes

/-- The bytes of one character. -/
def encodeChar (c : Char) : List UInt8 :=
  let n := c.toNat
  let byte (k : Nat) : UInt8 := UInt8.ofNat k
  if n < 0x80 then [byte n]
  else if n < 0x800 then [byte (0xC0 + n / 64), byte (0x80 + n % 64)]
  else if n < 0x10000 then [byte (0xE0 + n / 4096), byte (0x80 + n / 64 % 64), byte (0x80 + n % 64)]
  else [byte (0xF0 + n / 262144), byte (0x80 + n / 4096 % 64), byte (0x80 + n / 64 % 64),
    byte (0x80 + n % 64)]

/-- The bytes of a text. -/
def encode (t : Text) : List UInt8 := t.flatMap encodeChar

@[simp] theorem encode_nil : encode [] = [] := rfl

@[simp] theorem encode_append (s t : Text) : encode (s ++ t) = encode s ++ encode t := by
  simp [encode]

namespace Reason

/-- The wording of a reason. -/
def message : Reason → String
  | .invalidStart => "invalid start byte"
  | .invalidContinuation => "invalid continuation byte"
  | .unexpectedEnd => "unexpected end of data"

end Reason

namespace Flaw

/-- The wording of a flaw: a single byte is shown, several are only located. -/
def message (f : Flaw) : String :=
  if f.stop = f.start + 1 then
    s!"'utf-8' codec can't decode byte 0x{(Text.hex 2 f.byte.toNat).toString} in position {f.start}: {f.reason.message}"
  else
    s!"'utf-8' codec can't decode bytes in position {f.start}-{f.stop - 1}: {f.reason.message}"

end Flaw

end SemiThue.Utf8

import HarnessIndex.Text.Blank

/-!
# UTF-8

Writing a text as UTF-8 and reading bytes as UTF-8. Reading never fails: every longest run of bytes
that begins a character but cannot be completed, and every byte that begins none, is read as one
replacement character.
-/

namespace HarnessIndex.Text

/-- The replacement character. -/
def replacement : Char := '\uFFFD'

/-- The UTF-8 form of one character. -/
def encodeChar (c : Char) : List UInt8 :=
  let code := c.toNat
  if code < 0x80 then [code.toUInt8]
  else if code < 0x800 then [(0xc0 + code / 0x40).toUInt8, (0x80 + code % 0x40).toUInt8]
  else if code < 0x10000 then
    [(0xe0 + code / 0x1000).toUInt8, (0x80 + code / 0x40 % 0x40).toUInt8,
      (0x80 + code % 0x40).toUInt8]
  else
    [(0xf0 + code / 0x40000).toUInt8, (0x80 + code / 0x1000 % 0x40).toUInt8,
      (0x80 + code / 0x40 % 0x40).toUInt8, (0x80 + code % 0x40).toUInt8]

/-- The UTF-8 form of a text. -/
def encode (text : Text) : List UInt8 :=
  text.flatMap encodeChar

/-- A character of which some bytes have been read: the bits so far, how many bytes are missing,
and the range in which the next one has to lie. -/
structure Partial where
  bits : Nat
  missing : Nat
  low : Nat
  high : Nat

/-- What a byte at the beginning of a character means. -/
inductive Lead where
  | whole (c : Char)
  | more (state : Partial)
  | bad

/-- Classify the first byte of a character. The narrower ranges after `E0`, `ED`, `F0` and `F4` rule
out overlong forms, surrogates and codes above `10FFFF`. -/
def lead (byte : UInt8) : Lead :=
  let value := byte.toNat
  if value < 0x80 then .whole (Char.ofNat value)
  else if value < 0xc2 then .bad
  else if value < 0xe0 then .more ⟨value - 0xc0, 1, 0x80, 0xbf⟩
  else if value = 0xe0 then .more ⟨0, 2, 0xa0, 0xbf⟩
  else if value = 0xed then .more ⟨0xd, 2, 0x80, 0x9f⟩
  else if value < 0xf0 then .more ⟨value - 0xe0, 2, 0x80, 0xbf⟩
  else if value = 0xf0 then .more ⟨0, 3, 0x90, 0xbf⟩
  else if value < 0xf4 then .more ⟨value - 0xf0, 3, 0x80, 0xbf⟩
  else if value = 0xf4 then .more ⟨4, 3, 0x80, 0x8f⟩
  else .bad

/-- Read bytes, possibly in the middle of a character. -/
def decodeFrom : Option Partial → List UInt8 → Text
  | none, [] => []
  | some _, [] => [replacement]
  | none, byte :: rest =>
      match lead byte with
      | .whole c => c :: decodeFrom none rest
      | .more state => decodeFrom (some state) rest
      | .bad => replacement :: decodeFrom none rest
  | some state, byte :: rest =>
      if state.low ≤ byte.toNat && byte.toNat ≤ state.high then
        let bits := state.bits * 0x40 + byte.toNat % 0x40
        if state.missing ≤ 1 then Char.ofNat bits :: decodeFrom none rest
        else decodeFrom (some ⟨bits, state.missing - 1, 0x80, 0xbf⟩) rest
      else
        match lead byte with
        | .whole c => replacement :: c :: decodeFrom none rest
        | .more next => replacement :: decodeFrom (some next) rest
        | .bad => replacement :: replacement :: decodeFrom none rest

/-- Read bytes as UTF-8. -/
def decode (bytes : List UInt8) : Text :=
  decodeFrom none bytes

/-- Read bytes as UTF-8 if they are nothing else. -/
def decode? (bytes : List UInt8) : Option Text :=
  let text := decode bytes
  if encode text = bytes then some text else none

end HarnessIndex.Text

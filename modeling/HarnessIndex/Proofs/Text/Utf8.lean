import HarnessIndex.Text.Utf8

/-!
# Reading back what is written as UTF-8

The bytes of a text are read as the text, whatever bytes follow. Every character is read from its
lead byte and as many following bytes as the lead byte announces; the ranges of the second byte
leave out no character.
-/

namespace HarnessIndex.Text

theorem toNat_toUInt8 {value : Nat} (small : value < 0x100) : value.toUInt8.toNat = value := by
  simp [Nat.mod_eq_of_lt small]

/-- A character is below the end of the code space and no surrogate. -/
theorem toNat_cases (c : Char) : c.toNat < 0xd800 ∨ 0xdfff < c.toNat ∧ c.toNat < 0x110000 :=
  c.valid

theorem decodeFrom_last (c : Char) {bits low high : Nat} {byte : UInt8} (rest : List UInt8)
    (lower : low ≤ byte.toNat) (upper : byte.toNat ≤ high)
    (same : bits * 0x40 + byte.toNat % 0x40 = c.toNat) :
    decodeFrom (some ⟨bits, 1, low, high⟩) (byte :: rest) = c :: decodeFrom none rest := by
  rw [decodeFrom, if_pos (by simp [lower, upper])]
  simp [same, Char.ofNat_toNat]

/-- A byte in the middle of a character adds its bits. -/
theorem decodeFrom_middle {bits missing low high : Nat} {byte : UInt8} (rest : List UInt8)
    (lower : low ≤ byte.toNat) (upper : byte.toNat ≤ high) :
    decodeFrom (some ⟨bits, missing + 2, low, high⟩) (byte :: rest) =
      decodeFrom (some ⟨bits * 0x40 + byte.toNat % 0x40, missing + 1, 0x80, 0xbf⟩) rest := by
  rw [decodeFrom, if_pos (by simp [lower, upper])]
  simp

theorem decodeFrom_more {state : Partial} {byte : UInt8} (rest : List UInt8)
    (leads : lead byte = .more state) :
    decodeFrom none (byte :: rest) = decodeFrom (some state) rest := by
  rw [decodeFrom, leads]

/-- The second byte of a character of three bytes is in the range that its lead byte leaves. -/
theorem exists_lead_of_three (code : Nat) (lower : 0x800 ≤ code) (upper : code < 0x10000)
    (noSurrogate : code < 0xd800 ∨ 0xdfff < code) :
    ∃ low high, lead (0xe0 + code / 0x1000).toUInt8 = .more ⟨code / 0x1000, 2, low, high⟩ ∧
      low ≤ 0x80 + code / 0x40 % 0x40 ∧ 0x80 + code / 0x40 % 0x40 ≤ high := by
  have first : (0xe0 + code / 0x1000).toUInt8.toNat = 0xe0 + code / 0x1000 :=
    toNat_toUInt8 (by omega)
  rw [lead, first, if_neg (by omega), if_neg (by omega), if_neg (by omega)]
  split
  · rename_i lowest
    exact ⟨_, _, by rw [show code / 0x1000 = 0 by omega], by omega, by omega⟩
  · split
    · rename_i surrogates
      exact ⟨_, _, by rw [show code / 0x1000 = 0xd by omega], by omega, by omega⟩
    · rw [if_pos (by omega)]
      exact ⟨_, _, by rw [Nat.add_sub_cancel_left], by omega, by omega⟩

/-- The second byte of a character of four bytes is in the range that its lead byte leaves. -/
theorem exists_lead_of_four (code : Nat) (lower : 0x10000 ≤ code) (upper : code < 0x110000) :
    ∃ low high, lead (0xf0 + code / 0x40000).toUInt8 = .more ⟨code / 0x40000, 3, low, high⟩ ∧
      low ≤ 0x80 + code / 0x1000 % 0x40 ∧ 0x80 + code / 0x1000 % 0x40 ≤ high := by
  have first : (0xf0 + code / 0x40000).toUInt8.toNat = 0xf0 + code / 0x40000 :=
    toNat_toUInt8 (by omega)
  rw [lead, first, if_neg (by omega), if_neg (by omega), if_neg (by omega), if_neg (by omega),
    if_neg (by omega), if_neg (by omega)]
  split
  · exact ⟨_, _, by rw [show code / 0x40000 = 0 by omega], by omega, by omega⟩
  · split
    · exact ⟨_, _, by rw [Nat.add_sub_cancel_left], by omega, by omega⟩
    · rw [if_pos (by omega)]
      exact ⟨_, _, by rw [show code / 0x40000 = 4 by omega], by omega, by omega⟩

theorem decodeFrom_encodeChar (c : Char) (rest : List UInt8) :
    decodeFrom none (encodeChar c ++ rest) = c :: decodeFrom none rest := by
  have range := toNat_cases c
  have follows (value : Nat) : (0x80 + value % 0x40).toUInt8.toNat = 0x80 + value % 0x40 :=
    toNat_toUInt8 (by omega)
  rw [encodeChar]
  split
  · rename_i small
    rw [List.singleton_append, decodeFrom, lead, toNat_toUInt8 (by omega), if_pos small]
    simp [Char.ofNat_toNat]
  · split
    · have first : (0xc0 + c.toNat / 0x40).toUInt8.toNat = 0xc0 + c.toNat / 0x40 :=
        toNat_toUInt8 (by omega)
      have last := follows c.toNat
      have leads :
          lead (0xc0 + c.toNat / 0x40).toUInt8 = .more ⟨c.toNat / 0x40, 1, 0x80, 0xbf⟩ := by
        rw [lead, first, if_neg (by omega), if_neg (by omega), if_pos (by omega)]
        simp
      rw [List.cons_append, decodeFrom_more _ leads, List.singleton_append,
        decodeFrom_last c _ (by omega) (by omega) (by omega)]
    · split
      · obtain ⟨low, high, leads, lower, upper⟩ :=
          exists_lead_of_three c.toNat (by omega) (by omega) (by omega)
        have middle := follows (c.toNat / 0x40)
        have last := follows c.toNat
        rw [List.cons_append, decodeFrom_more _ leads, List.cons_append,
          decodeFrom_middle _ (by omega) (by omega), List.singleton_append,
          decodeFrom_last c _ (by omega) (by omega) (by omega)]
      · obtain ⟨low, high, leads, lower, upper⟩ :=
          exists_lead_of_four c.toNat (by omega) (by omega)
        have second := follows (c.toNat / 0x1000)
        have third := follows (c.toNat / 0x40)
        have last := follows c.toNat
        rw [List.cons_append, decodeFrom_more _ leads, List.cons_append,
          decodeFrom_middle _ (by omega) (by omega), List.cons_append,
          decodeFrom_middle _ (by omega) (by omega), List.singleton_append,
          decodeFrom_last c _ (by omega) (by omega) (by omega)]

theorem encode_append (front back : Text) : encode (front ++ back) = encode front ++ encode back :=
  List.flatMap_append

theorem decodeFrom_encode_append (text : Text) (rest : List UInt8) :
    decodeFrom none (encode text ++ rest) = text ++ decodeFrom none rest := by
  induction text with
  | nil => rfl
  | cons c text ih =>
      rw [encode, List.flatMap_cons, List.append_assoc, decodeFrom_encodeChar, ← encode, ih,
        List.cons_append]

/-- What is written as UTF-8 is read back. -/
theorem decode_encode (text : Text) : decode (encode text) = text := by
  have read := decodeFrom_encode_append text []
  rwa [List.append_nil, decodeFrom, List.append_nil] at read

end HarnessIndex.Text

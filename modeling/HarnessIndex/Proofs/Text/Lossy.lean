import HarnessIndex.Proofs.Text.Part
import HarnessIndex.Proofs.Text.Utf8
import Mathlib.Algebra.Group.Nat.Defs

/-!
# ASCII in what is read from bytes

Reading bytes that are no UTF-8 puts replacement characters where they do not fit, and may begin and
end anywhere. It never makes ASCII out of anything else and never takes any away: an ASCII text
occurs in what is read exactly where its bytes occur.

The proof follows the bytes one by one. A byte gives some characters that are not ASCII, and then
itself if it is ASCII; inside a character that is not complete yet, it gives at least one before.
-/

namespace HarnessIndex.Text

/-- A character with a code of a single byte. -/
def IsAscii (c : Char) : Prop :=
  c.toNat < 0x80

def NoAscii (text : Text) : Prop :=
  ∀ c ∈ text, ¬ IsAscii c

instance (c : Char) : Decidable (IsAscii c) :=
  inferInstanceAs (Decidable (c.toNat < 0x80))

instance (text : Text) : Decidable (NoAscii text) :=
  List.decidableBAll (fun c => ¬ IsAscii c) text

theorem not_isAscii_replacement : ¬ IsAscii replacement := by
  decide

theorem noAscii_nil : NoAscii [] := by
  intro c member
  cases member

theorem noAscii_cons {c : Char} {text : Text} (first : ¬ IsAscii c) (rest : NoAscii text) :
    NoAscii (c :: text) := by
  intro other member
  cases member with
  | head => exact first
  | tail _ later => exact rest other later

/-- An ASCII text does not begin before the end of a text without ASCII. -/
theorem exists_of_noAscii_append {marks text front part back : Text} (none : NoAscii marks)
    {c : Char} (ascii : IsAscii c) (same : marks ++ text = front ++ c :: part ++ back) :
    ∃ front', text = front' ++ c :: part ++ back := by
  induction marks generalizing front with
  | nil => exact ⟨front, same⟩
  | cons mark marks ih =>
      cases front with
      | nil =>
          obtain ⟨rfl, -⟩ := List.cons.inj same
          exact absurd ascii (none mark List.mem_cons_self)
      | cons first front =>
          obtain ⟨-, same⟩ := List.cons.inj same
          exact ih (fun other member => none other (List.mem_cons_of_mem mark member)) same

/-! ## Characters that are not complete -/

namespace Partial

/-- How many codes a choice of the next byte leaves. -/
def unit (state : Partial) : Nat :=
  0x40 ^ (state.missing - 1)

/-- The least code that a character can still have. -/
def least (state : Partial) : Nat :=
  (state.bits * 0x40 + (state.low - 0x80)) * state.unit

/-- The end of the codes that a character can still have. -/
def limit (state : Partial) : Nat :=
  (state.bits * 0x40 + (state.high - 0x80) + 1) * state.unit

/-- All codes that a character can still have are those of characters that are not ASCII. -/
structure Sound (state : Partial) : Prop where
  low : 0x80 ≤ state.low
  high : state.high ≤ 0xbf
  missing : 1 ≤ state.missing ∧ state.missing ≤ 3
  least : 0x80 ≤ state.least
  scalar : state.limit ≤ 0xd800 ∨ 0xe000 ≤ state.least ∧ state.limit ≤ 0x110000

theorem Sound.of_size {bits missing low high : Nat} (size : Nat)
    (unit : 0x40 ^ (missing - 1) = size) (few : 1 ≤ missing ∧ missing ≤ 3)
    (bounds : 0x80 ≤ low ∧ high ≤ 0xbf) (least : 0x80 ≤ (bits * 0x40 + (low - 0x80)) * size)
    (scalar : (bits * 0x40 + (high - 0x80) + 1) * size ≤ 0xd800 ∨
      0xe000 ≤ (bits * 0x40 + (low - 0x80)) * size ∧
        (bits * 0x40 + (high - 0x80) + 1) * size ≤ 0x110000) :
    Sound ⟨bits, missing, low, high⟩ := by
  subst unit
  exact ⟨bounds.1, bounds.2, few, least, scalar⟩

end Partial

/-- What a first byte means. -/
theorem lead_cases (byte : UInt8) :
    (byte.toNat < 0x80 ∧ lead byte = .whole (Char.ofNat byte.toNat)) ∨
      0x80 ≤ byte.toNat ∧ (lead byte = .bad ∨ ∃ state, lead byte = .more state ∧ state.Sound) := by
  unfold lead
  generalize byte.toNat = value
  dsimp only
  by_cases ascii : value < 0x80
  · exact .inl ⟨ascii, if_pos ascii⟩
  · refine .inr ⟨Nat.not_lt.mp ascii, ?_⟩
    rw [if_neg ascii]
    split
    · exact .inl rfl
    split
    · exact .inr ⟨_, rfl, .of_size 1 rfl (by omega) (by omega) (by omega) (by omega)⟩
    split
    · exact .inr ⟨_, rfl, .of_size 64 rfl (by omega) (by omega) (by omega) (by omega)⟩
    split
    · exact .inr ⟨_, rfl, .of_size 64 rfl (by omega) (by omega) (by omega) (by omega)⟩
    split
    · exact .inr ⟨_, rfl, .of_size 64 rfl (by omega) (by omega) (by omega) (by omega)⟩
    split
    · exact .inr ⟨_, rfl, .of_size 4096 rfl (by omega) (by omega) (by omega) (by omega)⟩
    split
    · exact .inr ⟨_, rfl, .of_size 4096 rfl (by omega) (by omega) (by omega) (by omega)⟩
    split
    · exact .inr ⟨_, rfl, .of_size 4096 rfl (by omega) (by omega) (by omega) (by omega)⟩
    · exact .inl rfl

theorem toNat_ofNat {code : Nat} (valid : code.isValidChar) : (Char.ofNat code).toNat = code := by
  rw [Char.ofNat, dif_pos valid]
  rfl

/-- A byte that completes a character gives one that is not ASCII. -/
theorem Partial.Sound.not_isAscii {state : Partial} (sound : state.Sound) {byte : UInt8}
    (last : state.missing ≤ 1) (lower : state.low ≤ byte.toNat) (upper : byte.toNat ≤ state.high) :
    ¬ IsAscii (Char.ofNat (state.bits * 0x40 + byte.toNat % 0x40)) := by
  obtain ⟨bits, missing, low, high⟩ := state
  obtain ⟨bound, bound', few, least, scalar⟩ := sound
  dsimp only at last lower upper bound bound' few ⊢
  have one : missing = 1 := Nat.le_antisymm last few.1
  subst one
  simp only [Partial.least, Partial.limit, Partial.unit, Nat.sub_self, Nat.pow_zero, Nat.mul_one]
    at least scalar
  have code : byte.toNat % 0x40 = byte.toNat - 0x80 := by omega
  have valid : (bits * 0x40 + byte.toNat % 0x40).isValidChar := by
    rw [Nat.isValidChar]
    omega
  rw [IsAscii, toNat_ofNat valid]
  omega

/-- A byte in the middle of a character leaves it with fewer codes. -/
theorem Partial.Sound.next {state : Partial} (sound : state.Sound) {byte : UInt8}
    (more : ¬ state.missing ≤ 1) (lower : state.low ≤ byte.toNat)
    (upper : byte.toNat ≤ state.high) :
    Partial.Sound ⟨state.bits * 0x40 + byte.toNat % 0x40, state.missing - 1, 0x80, 0xbf⟩ := by
  obtain ⟨bits, missing, low, high⟩ := state
  obtain ⟨bound, bound', few, least, scalar⟩ := sound
  dsimp only at more lower upper bound bound' few ⊢
  have code : byte.toNat % 0x40 = byte.toNat - 0x80 := by omega
  have unit : 0x40 ^ (missing - 1) = 0x40 * 0x40 ^ (missing - 1 - 1) := by
    rw [← Nat.pow_succ']
    congr 1
    omega
  have narrower : (bits * 0x40 + (low - 0x80)) * 0x40 ^ (missing - 1) ≤
      ((bits * 0x40 + (byte.toNat - 0x80)) * 0x40 + (0x80 - 0x80)) * 0x40 ^ (missing - 1 - 1) := by
    rw [Nat.sub_self, Nat.add_zero, Nat.mul_assoc, ← unit]
    exact Nat.mul_le_mul_right _ (Nat.add_le_add_left (Nat.sub_le_sub_right lower _) _)
  have narrower' :
      ((bits * 0x40 + (byte.toNat - 0x80)) * 0x40 + (0xbf - 0x80) + 1) * 0x40 ^ (missing - 1 - 1) ≤
        (bits * 0x40 + (high - 0x80) + 1) * 0x40 ^ (missing - 1) := by
    have whole (value : Nat) : value * 0x40 + (0xbf - 0x80) + 1 = (value + 1) * 0x40 := by omega
    rw [whole, Nat.mul_assoc, ← unit]
    exact Nat.mul_le_mul_right _
      (Nat.succ_le_succ (Nat.add_le_add_left (Nat.sub_le_sub_right upper _) _))
  rw [code]
  refine .of_size _ rfl (by omega) ⟨Nat.le_refl _, Nat.le_refl _⟩ (Nat.le_trans least narrower) ?_
  cases scalar with
  | inl below => exact .inl (Nat.le_trans narrower' below)
  | inr above => exact .inr ⟨Nat.le_trans above.1 narrower, Nat.le_trans narrower' above.2⟩

/-! ## What one byte gives -/

/-- A character that is not complete yet can only become one that is not ASCII. -/
def SoundFrom (state : Option Partial) : Prop :=
  ∀ started ∈ state, started.Sound

theorem soundFrom_none : SoundFrom none := by
  intro started member
  cases member

theorem soundFrom_some {state : Partial} (sound : state.Sound) : SoundFrom (some state) := by
  intro started member
  cases member
  exact sound

/-- What a byte gives: characters that are not ASCII, and then itself if it is ASCII. It gives at
least one character before itself when it cuts a character off, and gives none at all only when a
character stays incomplete. -/
inductive Gives (state : Option Partial) (byte : UInt8) : Prop where
  | itself (marks : Text) (ascii : byte.toNat < 0x80) (none : NoAscii marks)
      (cut : marks = [] ↔ state = .none)
      (same : ∀ rest, decodeFrom state (byte :: rest) =
        marks ++ Char.ofNat byte.toNat :: decodeFrom .none rest)
  | other (marks : Text) (next : Option Partial) (high : 0x80 ≤ byte.toNat) (none : NoAscii marks)
      (sound : SoundFrom next) (open' : marks = [] → next ≠ .none)
      (same : ∀ rest, decodeFrom state (byte :: rest) = marks ++ decodeFrom next rest)

theorem decodeFrom_ascii {byte : UInt8} (ascii : byte.toNat < 0x80) (rest : List UInt8) :
    decodeFrom none (byte :: rest) = Char.ofNat byte.toNat :: decodeFrom none rest := by
  rcases lead_cases byte with ⟨-, leads⟩ | ⟨high, -⟩
  · rw [decodeFrom, leads]
  · exact absurd ascii (Nat.not_lt.mpr high)

theorem gives_none (byte : UInt8) : Gives none byte := by
  rcases lead_cases byte with ⟨ascii, -⟩ | ⟨high, bad | ⟨next, more, sound⟩⟩
  · exact .itself [] ascii noAscii_nil (by simp) (decodeFrom_ascii ascii)
  · refine .other [replacement] none high ?_ soundFrom_none (by simp) ?_
    · exact noAscii_cons not_isAscii_replacement noAscii_nil
    · intro rest
      rw [decodeFrom, bad]
      rfl
  · refine .other [] (some next) high noAscii_nil (soundFrom_some sound) (by simp) ?_
    intro rest
    rw [decodeFrom_more rest more]
    rfl

/-- A byte that cannot continue a character cuts it off, and is read as a first byte. -/
theorem decodeFrom_cut {state : Partial} {byte : UInt8}
    (outside : ¬ (state.low ≤ byte.toNat ∧ byte.toNat ≤ state.high)) (rest : List UInt8) :
    decodeFrom (some state) (byte :: rest) = replacement :: decodeFrom none (byte :: rest) := by
  have outside : (decide (state.low ≤ byte.toNat) && decide (byte.toNat ≤ state.high)) = false := by
    simpa using outside
  simp only [decodeFrom, outside]
  cases lead byte <;> rfl

theorem gives_some {state : Partial} (sound : state.Sound) (byte : UInt8) :
    Gives (some state) byte := by
  by_cases within : state.low ≤ byte.toNat ∧ byte.toNat ≤ state.high
  · obtain ⟨lower, upper⟩ := within
    have high := Nat.le_trans sound.low lower
    by_cases last : state.missing ≤ 1
    · refine .other [Char.ofNat (state.bits * 0x40 + byte.toNat % 0x40)] none high ?_
        soundFrom_none (by simp) ?_
      · exact noAscii_cons (sound.not_isAscii last lower upper) noAscii_nil
      · intro rest
        rw [decodeFrom, if_pos (by simp [lower, upper])]
        simp [last]
    · refine .other [] _ high noAscii_nil (soundFrom_some (sound.next last lower upper))
        (by simp) ?_
      intro rest
      rw [decodeFrom, if_pos (by simp [lower, upper])]
      simp [last]
  · have cut := decodeFrom_cut within
    cases gives_none byte with
    | itself marks ascii none _ same =>
        refine .itself (replacement :: marks) ascii (noAscii_cons not_isAscii_replacement none)
          (by simp) ?_
        intro rest
        rw [cut, same]
        rfl
    | other marks next high none sound _ same =>
        refine .other (replacement :: marks) next high
          (noAscii_cons not_isAscii_replacement none) sound (by simp) ?_
        intro rest
        rw [cut, same]
        rfl

theorem gives {state : Option Partial} (sound : SoundFrom state) (byte : UInt8) :
    Gives state byte := by
  cases state with
  | none => exact gives_none byte
  | some state => exact gives_some (sound state rfl) byte

/-! ## What several bytes give -/

/-- Inside a character the next character that is read is not ASCII. -/
theorem not_isAscii_of_decodeFrom_some {state : Partial} (sound : state.Sound)
    {bytes : List UInt8} {c : Char} {rest : Text}
    (same : decodeFrom (some state) bytes = c :: rest) : ¬ IsAscii c := by
  induction bytes generalizing state with
  | nil =>
      obtain ⟨rfl, -⟩ := List.cons.inj same
      exact not_isAscii_replacement
  | cons byte bytes ih =>
      cases gives_some sound byte with
      | itself marks _ none cut read =>
          rw [read] at same
          cases marks with
          | nil => exact absurd (cut.mp rfl) (Option.some_ne_none state)
          | cons mark marks =>
              obtain ⟨rfl, -⟩ := List.cons.inj same
              exact none _ List.mem_cons_self
      | other marks next _ none sound open' read =>
          rw [read] at same
          cases marks with
          | nil =>
              cases next with
              | none => exact absurd rfl (open' rfl)
              | some next => exact ih (sound next rfl) same
          | cons mark marks =>
              obtain ⟨rfl, -⟩ := List.cons.inj same
              exact none _ List.mem_cons_self

theorem encodeChar_of_isAscii {byte : UInt8} (ascii : byte.toNat < 0x80) :
    encodeChar (Char.ofNat byte.toNat) = [byte] := by
  have valid : byte.toNat.isValidChar := by
    rw [Nat.isValidChar]
    omega
  rw [encodeChar, toNat_ofNat valid, if_pos ascii]
  simp

theorem encode_cons_of_isAscii {byte : UInt8} (ascii : byte.toNat < 0x80) (text : Text) :
    encode (Char.ofNat byte.toNat :: text) = byte :: encode text := by
  rw [encode, List.flatMap_cons, encodeChar_of_isAscii ascii]
  rfl

/-- An ASCII text at the front of what is read is written in the bytes at the front. -/
theorem exists_of_decodeFrom_none {part back : Text} {bytes : List UInt8}
    (ascii : ∀ c ∈ part, IsAscii c) (same : decodeFrom none bytes = part ++ back) :
    ∃ rest, bytes = encode part ++ rest := by
  induction part generalizing bytes with
  | nil => exact ⟨bytes, rfl⟩
  | cons c part ih =>
      obtain ⟨here, later⟩ := List.forall_mem_cons.mp ascii
      cases bytes with
      | nil => cases same
      | cons byte bytes =>
          cases gives_none byte with
          | itself marks small _ cut read =>
              obtain rfl := cut.mpr rfl
              rw [read] at same
              obtain ⟨rfl, tail⟩ := List.cons.inj same
              obtain ⟨rest, rfl⟩ := ih later tail
              exact ⟨rest, by rw [encode_cons_of_isAscii small]; rfl⟩
          | other marks next _ none sound open' read =>
              rw [read] at same
              cases marks with
              | nil =>
                  cases next with
                  | none => exact absurd rfl (open' rfl)
                  | some next =>
                      exact absurd here (not_isAscii_of_decodeFrom_some (sound next rfl) same)
              | cons mark marks =>
                  obtain ⟨rfl, -⟩ := List.cons.inj same
                  exact absurd here (none _ List.mem_cons_self)

/-- An ASCII text in what is read is written in the bytes. -/
theorem exists_of_decodeFrom {state : Option Partial} (sound : SoundFrom state)
    {bytes : List UInt8} {front part back : Text} {c : Char}
    (ascii : ∀ d ∈ c :: part, IsAscii d)
    (same : decodeFrom state bytes = front ++ c :: part ++ back) :
    ∃ before after, bytes = before ++ encode (c :: part) ++ after := by
  have here : IsAscii c := ascii c List.mem_cons_self
  induction bytes generalizing state front with
  | nil =>
      cases state with
      | none => simp [decodeFrom] at same
      | some state =>
          have marks : NoAscii [replacement] := noAscii_cons not_isAscii_replacement noAscii_nil
          have same : [replacement] ++ [] = front ++ c :: part ++ back := same
          obtain ⟨front', none⟩ := exists_of_noAscii_append marks here same
          simp at none
  | cons byte bytes ih =>
      cases gives sound byte with
      | itself marks small none _ read =>
          rw [read] at same
          obtain ⟨front', same⟩ := exists_of_noAscii_append none here same
          cases front' with
          | nil =>
              rw [← decodeFrom_ascii small] at same
              obtain ⟨after, written⟩ := exists_of_decodeFrom_none ascii same
              exact ⟨[], after, written⟩
          | cons first front' =>
              obtain ⟨-, tail⟩ := List.cons.inj same
              obtain ⟨before, after, rfl⟩ := ih soundFrom_none tail
              exact ⟨byte :: before, after, rfl⟩
      | other marks next _ none sound _ read =>
          rw [read] at same
          obtain ⟨front', same⟩ := exists_of_noAscii_append none here same
          obtain ⟨before, after, rfl⟩ := ih sound same
          exact ⟨byte :: before, after, rfl⟩

/-- After some bytes a text has been read and the rest goes on from what is not complete. -/
theorem exists_decodeFrom_append {state : Option Partial} (sound : SoundFrom state)
    (before : List UInt8) :
    ∃ front next, SoundFrom next ∧
      ∀ rest, decodeFrom state (before ++ rest) = front ++ decodeFrom next rest := by
  induction before generalizing state with
  | nil => exact ⟨[], state, sound, fun _ => rfl⟩
  | cons byte before ih =>
      cases gives sound byte with
      | itself marks _ _ _ read =>
          obtain ⟨front, next, sound, later⟩ := ih soundFrom_none
          refine ⟨marks ++ Char.ofNat byte.toNat :: front, next, sound, ?_⟩
          intro rest
          rw [List.cons_append, read, later]
          simp
      | other marks next _ _ sound _ read =>
          obtain ⟨front, next, sound, later⟩ := ih sound
          refine ⟨marks ++ front, next, sound, ?_⟩
          intro rest
          rw [List.cons_append, read, later]
          simp

/-- What is written in the bytes as ASCII is read, whatever stands around it. -/
theorem exists_decode_of_encode {part : Text} {c : Char} (ascii : IsAscii c)
    (before after : List UInt8) :
    ∃ front back, decode (before ++ encode (c :: part) ++ after) = front ++ c :: part ++ back := by
  have byte : c.toNat.toUInt8.toNat = c.toNat := toNat_toUInt8 (Nat.lt_trans ascii (by decide))
  have small : c.toNat.toUInt8.toNat < 0x80 := by rwa [byte]
  have itself : Char.ofNat c.toNat.toUInt8.toNat = c := by rw [byte, Char.ofNat_toNat]
  have written := encode_cons_of_isAscii small part
  rw [itself] at written
  obtain ⟨front, next, sound, first⟩ := exists_decodeFrom_append soundFrom_none before
  rw [decode, List.append_assoc, first, written, List.cons_append]
  cases gives sound c.toNat.toUInt8 with
  | itself marks _ _ _ read =>
      refine ⟨front ++ marks, decodeFrom none after, ?_⟩
      rw [read, itself, decodeFrom_encode_append]
      simp
  | other _ _ high _ _ _ _ => exact absurd small (Nat.not_lt.mpr high)

/-- An ASCII text occurs in what is read exactly where its bytes occur. -/
theorem occursIn_decode_iff {part : Text} (ascii : ∀ c ∈ part, IsAscii c) (bytes : List UInt8) :
    occursIn part (decode bytes) = true ↔ encode part <:+: bytes := by
  rw [occursIn_iff]
  cases part with
  | nil =>
      refine iff_of_true ⟨[], decode bytes, rfl⟩ ?_
      exact List.nil_infix
  | cons c part =>
      constructor
      · rintro ⟨front, back, same⟩
        obtain ⟨before, after, rfl⟩ := exists_of_decodeFrom soundFrom_none ascii same
        exact ⟨before, after, rfl⟩
      · rintro ⟨before, after, rfl⟩
        exact exists_decode_of_encode (ascii c List.mem_cons_self) before after

end HarnessIndex.Text

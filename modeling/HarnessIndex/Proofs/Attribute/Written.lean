import HarnessIndex.Attribute.Classify
import HarnessIndex.Proofs.Text.Trim
import HarnessIndex.Proofs.Text.Word

/-!
# Attributes inside other attributes

The arguments of an attribute stand in its token text, each but the first after a comma, so none of
them continues a word. An attribute that is written as such an argument is read off a path at its
front.
-/

namespace HarnessIndex.Attribute

open Text

/-! ## Where arguments stand -/

theorem cut_ne_nil (pending depth : Nat) (previous : Option Char) (text : Text) :
    cut pending depth previous text ≠ [] := by
  have extended (c : Char) (pieces : List Text) : extendFirst c pieces ≠ [] := by
    cases pieces <;> simp [extendFirst]
  cases text with
  | nil => simp
  | cons c rest =>
      rw [cut.eq_def]
      simp only
      repeat' split
      all_goals first | exact extended _ _ | simp

theorem join_extendFirst {pieces : List Text} (some : pieces ≠ []) (separator : Text) (c : Char) :
    join separator (extendFirst c pieces) = c :: join separator pieces := by
  cases pieces with
  | nil => exact absurd rfl some
  | cons piece pieces => cases pieces <;> simp [extendFirst]

/-- Cutting a text loses nothing but the commas. -/
theorem join_cut (pending depth : Nat) (previous : Option Char) (text : Text) :
    join [','] (cut pending depth previous text) = text := by
  induction text generalizing pending depth previous with
  | nil => simp
  | cons c rest ih =>
      cases pending with
      | succ pending => rw [cut, join_extendFirst (cut_ne_nil _ _ _ _), ih]
      | zero =>
          rw [cut]
          split
          · rw [join_extendFirst (cut_ne_nil _ _ _ _), ih]
          · split
            · rename_i comma
              obtain ⟨next, more, same⟩ := List.exists_cons_of_ne_nil (cut_ne_nil 0 0 (some c) rest)
              have joined := ih 0 0 (some c)
              rw [same] at joined ⊢
              rw [join_cons_cons, joined, of_decide_eq_true (Bool.and_eq_true_iff.mp comma).1]
              rfl
            · rw [join_extendFirst (cut_ne_nil _ _ _ _), ih]

/-- A piece that is not the first one stands after a comma. -/
theorem exists_of_mem_tail {pieces : List Text} {piece : Text} (member : piece ∈ pieces.tail) :
    ∃ before after, join [','] pieces = before ++ ',' :: piece ++ after := by
  cases pieces with
  | nil => simp at member
  | cons first rest =>
      induction rest generalizing first with
      | nil => simp at member
      | cons next rest ih =>
          rw [join_cons_cons]
          rcases List.mem_cons.mp member with rfl | later
          · cases rest with
            | nil => exact ⟨first, [], by simp⟩
            | cons last rest => exact ⟨first, [','] ++ join [','] (last :: rest), by simp⟩
          · obtain ⟨before, after, same⟩ := ih next later
            exact ⟨first ++ [','] ++ before, after, by simp [same]⟩

theorem mem_tail_of_mem_tail_filter {α : Type} {keep : α → Bool} {value : α} {values : List α}
    (member : value ∈ (values.filter keep).tail) : value ∈ values.tail := by
  cases values with
  | nil => simp at member
  | cons first rest =>
      rw [List.filter_cons] at member
      split at member
      · exact (List.mem_filter.mp member).1
      · exact (List.mem_filter.mp (List.mem_of_mem_tail member)).1

theorem exists_undelimited (text : Text) :
    ∃ before after, text = before ++ undelimited text ++ after := by
  obtain ⟨front, back, split, -, -⟩ := exists_trim text
  rw [undelimited]
  cases trimmed : trim text with
  | nil => exact ⟨text, [], by simp⟩
  | cons first rest =>
      rw [trimmed] at split
      cases pair : closer? first with
      | none =>
          simp only [pair]
          exact ⟨front, back, split⟩
      | some closer =>
          simp only [pair]
          split
          · rename_i closed
            obtain ⟨inner, rfl⟩ := List.getLast?_eq_some_iff.mp closed
            exact ⟨front ++ [first], [closer] ++ back, by simp [split]⟩
          · exact ⟨front ++ [first], back, by simp [split]⟩

/-- An argument that is not the first one stands in the token text, where no word is continued,
whatever stands before the token text. -/
theorem exists_of_mem_tail_splitArguments {text argument : Text}
    (member : argument ∈ (splitArguments text).tail) :
    ∃ before after, text = before ++ argument ++ after ∧
      ∀ outside, endsInWord (outside ++ before) = false := by
  have later := mem_tail_of_mem_tail_filter member
  rw [← List.map_tail] at later
  obtain ⟨piece, pieceMem, rfl⟩ := List.mem_map.mp later
  obtain ⟨before, after, joined⟩ := exists_of_mem_tail pieceMem
  obtain ⟨front, back, split⟩ := exists_undelimited text
  obtain ⟨blanks, blanks', trimmed, blank, -⟩ := exists_trim piece
  rw [join_cut] at joined
  refine ⟨front ++ before ++ [','] ++ blanks, blanks' ++ after ++ back, ?_, ?_⟩
  · rw [joined] at split
    rw [split]
    generalize trim piece = inner at trimmed ⊢
    rw [trimmed]
    simp
  · intro outside
    have comma : endsInWord (outside ++ (front ++ before) ++ [',']) = false := by
      rw [endsInWord_concat]
      rfl
    have ends := endsInWord_append_blanks comma blank
    simpa using ends

/-! ## Reading a written attribute -/

/-- The path at the front of a written attribute, with its blanks. -/
def writtenPath (text : Text) : Text :=
  match trim text with
  | [] => []
  | first :: rest => first :: rest.takeWhile Descriptor.isPathChar

theorem exists_writtenPath (text : Text) :
    ∃ blanks after, text = blanks ++ writtenPath text ++ after ∧
      ∀ c ∈ blanks, isBlank c = true := by
  obtain ⟨front, back, split, blank, -⟩ := exists_trim text
  rw [writtenPath]
  cases trimmed : trim text with
  | nil =>
      rw [trimmed] at split
      exact ⟨front, back, split, blank⟩
  | cons first rest =>
      have whole := List.takeWhile_append_dropWhile (p := Descriptor.isPathChar) (l := rest)
      refine ⟨front, rest.dropWhile Descriptor.isPathChar ++ back, ?_, blank⟩
      rw [split, trimmed, List.append_assoc, List.append_assoc, List.cons_append,
        List.cons_append, ← List.append_assoc, whole]

/-- A written attribute is the one with its path. -/
theorem kind_of_ofText? {text : Text} {line : Nat} {descriptor : Descriptor}
    (found : Descriptor.ofText? text line = some descriptor) :
    descriptor.kind = Kind.ofName (withoutBlanks (writtenPath text)) := by
  rw [Descriptor.ofText?] at found
  rw [writtenPath]
  cases trimmed : trim text with
  | nil => simp [trimmed] at found
  | cons first rest =>
      simp only [trimmed] at found
      split at found
      · obtain ⟨arguments, -, rfl⟩ := Option.map_eq_some_iff.mp found
        rfl
      · simp at found

theorem name_of_declaresHarness {name : Text}
    (declares : (Kind.ofName name).declaresHarness = true) :
    name = "kani::proof" ∨ name = "kani::proof_for_contract" := by
  rw [Kind.ofName, Kind.known] at declares
  simp only [List.lookup_cons] at declares
  split at declares
  · rename_i same
    exact Or.inl (beq_iff_eq.mp same)
  · split at declares
    · rename_i same
      exact Or.inr (beq_iff_eq.mp same)
    · repeat' split at declares
      all_goals simp [Kind.declaresHarness] at declares

end HarnessIndex.Attribute

import HarnessIndex.Text.Path

/-!
# Normal forms of paths

A path that has been read is in normal form, and so is one at a home directory. Reading what has been
written of such a path gives the path again.
-/

namespace HarnessIndex

namespace Text

variable {separator : Char}

theorem splitOn_of_notMem {text : Text} (absent : separator ∉ text) :
    splitOn separator text = [text] := by
  induction text with
  | nil => rfl
  | cons c rest ih =>
      rw [List.mem_cons, not_or] at absent
      rw [splitOn, if_neg (Ne.symm absent.1), ih absent.2]

theorem splitOn_append_cons {front : Text} (absent : separator ∉ front) (back : Text) :
    splitOn separator (front ++ separator :: back) = front :: splitOn separator back := by
  induction front with
  | nil => rw [List.nil_append, splitOn, if_pos rfl]
  | cons c rest ih =>
      rw [List.mem_cons, not_or] at absent
      rw [List.cons_append, splitOn, if_neg (Ne.symm absent.1), ih absent.2]

/-- Pieces without the separator are found again in what they are joined to. -/
theorem splitOn_join {pieces : List Text} (some : pieces ≠ [])
    (absent : ∀ piece ∈ pieces, separator ∉ piece) :
    splitOn separator (join [separator] pieces) = pieces := by
  induction pieces with
  | nil => exact absurd rfl some
  | cons first rest ih =>
      obtain ⟨here, later⟩ := List.forall_mem_cons.mp absent
      cases rest with
      | nil => exact splitOn_of_notMem here
      | cons next more =>
          rw [join_cons_cons, List.append_assoc, List.singleton_append, splitOn_append_cons here,
            ih (List.cons_ne_nil next more) later]

theorem notMem_of_mem_splitOn {text piece : Text} (member : piece ∈ splitOn separator text) :
    separator ∉ piece := by
  induction text generalizing piece with
  | nil =>
      rw [List.mem_singleton.mp member]
      exact List.not_mem_nil
  | cons c rest ih =>
      rw [splitOn] at member
      split at member
      · rcases List.mem_cons.mp member with rfl | later
        · exact List.not_mem_nil
        · exact ih later
      · rename_i different
        have first : ∀ part ∈ splitOn separator rest, separator ∉ c :: part := by
          intro part known
          rw [List.mem_cons, not_or]
          exact ⟨Ne.symm different, ih known⟩
        cases pieces : splitOn separator rest with
        | nil => exact absurd pieces (splitOn_ne_nil separator rest)
        | cons part parts =>
            rw [pieces] at member first ih
            rcases List.mem_cons.mp member with rfl | later
            · exact first part List.mem_cons_self
            · exact ih (List.mem_cons_of_mem part later)

end Text

namespace Path

/-- The part of a path that says something. -/
structure IsPart (part : Text) : Prop where
  ne_nil : part ≠ []
  ne_dot : part ≠ ['.']
  slash : '/' ∉ part

/-- A path that reading can give. -/
structure Normal (path : Path) : Prop where
  slashes : path.slashes ≤ 2
  parts : ∀ part ∈ path.parts, IsPart part

theorem rootOf_le (text : Text) : rootOf text ≤ 2 := by
  unfold rootOf
  split <;> omega

theorem normal_ofText (text : Text) : (ofText text).Normal where
  slashes := rootOf_le text
  parts part member := by
    obtain ⟨piece, passed⟩ := List.mem_filter.mp member
    have kept : part ≠ [] ∧ part ≠ ['.'] := by simpa using passed
    exact ⟨kept.1, kept.2, Text.notMem_of_mem_splitOn piece⟩

theorem normal_expandHome {homes : Homes} {path expanded : Path} (normal : path.Normal)
    (found : expandHome homes path = some expanded) : expanded.Normal := by
  rw [expandHome] at found
  split at found
  · exact Option.some.inj found ▸ normal
  · split at found
    · rename_i name rest parts
      obtain ⟨home, -, same⟩ := Option.bind_eq_some_iff.mp found
      rw [← Option.some.inj same]
      refine ⟨(normal_ofText home).slashes, fun part member => ?_⟩
      rcases List.mem_append.mp member with early | late
      · exact (normal_ofText home).parts part early
      · exact normal.parts part (parts ▸ List.mem_cons_of_mem _ late)
    · exact Option.some.inj found ▸ normal

@[simp] theorem partsOf_cons_slash (text : Text) : partsOf ('/' :: text) = partsOf text := by
  rw [partsOf, Text.splitOn, if_pos rfl]
  rfl

theorem partsOf_join {parts : List Text} (normal : ∀ part ∈ parts, IsPart part) :
    partsOf (Text.join ['/'] parts) = parts := by
  cases parts with
  | nil => rfl
  | cons first rest =>
      rw [partsOf, Text.splitOn_join (List.cons_ne_nil first rest) fun part member =>
        (normal part member).slash]
      refine List.filter_eq_self.mpr fun part member => ?_
      simp [(normal part member).ne_nil, (normal part member).ne_dot]

/-- The leading slashes count as they are when something else follows. -/
theorem rootOf_replicate {count : Nat} (few : count ≤ 2) {c : Char} (other : c ≠ '/')
    (rest : Text) : rootOf (List.replicate count '/' ++ c :: rest) = count := by
  match count, few with
  | 0, _ => simp [rootOf, other]
  | 1, _ => cases rest <;> simp [rootOf, List.replicate, other]
  | 2, _ => simp [rootOf, List.replicate, other]

theorem exists_join_eq_cons {first : Text} (part : IsPart first) (rest : List Text) :
    ∃ c text, c ≠ '/' ∧ Text.join ['/'] (first :: rest) = c :: text := by
  cases first with
  | nil => exact absurd rfl part.ne_nil
  | cons c name =>
      have other : c ≠ '/' := fun same => part.slash (same ▸ List.mem_cons_self)
      cases rest with
      | nil => exact ⟨c, name, other, rfl⟩
      | cons next more => exact ⟨c, _, other, rfl⟩

/-- Reading what has been written of a path gives the path again. -/
theorem ofText_toText {path : Path} (normal : path.Normal) : ofText path.toText = path := by
  obtain ⟨slashes, parts⟩ := path
  have few : slashes ≤ 2 := normal.slashes
  rw [toText]
  cases parts with
  | nil =>
      match slashes, few with
      | 0, _ => rfl
      | 1, _ => rfl
      | 2, _ => rfl
  | cons first rest =>
      obtain ⟨c, text, other, joined⟩ :=
        exists_join_eq_cons (normal.parts first List.mem_cons_self) rest
      have root : rootOf (List.replicate slashes '/' ++ Text.join ['/'] (first :: rest)) =
          slashes := by
        rw [joined]
        exact rootOf_replicate few other text
      have kept : partsOf (List.replicate slashes '/' ++ Text.join ['/'] (first :: rest)) =
          first :: rest := by
        match slashes, few with
        | 0, _ => exact partsOf_join normal.parts
        | 1, _ => exact (partsOf_cons_slash _).trans (partsOf_join normal.parts)
        | 2, _ =>
            exact (partsOf_cons_slash _).trans
              ((partsOf_cons_slash _).trans (partsOf_join normal.parts))
      simp [ofText, root, kept]

end Path

end HarnessIndex

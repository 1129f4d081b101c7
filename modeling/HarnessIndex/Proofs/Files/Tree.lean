import HarnessIndex.Files.Entry

/-!
# What stands in a directory tree

A file stands where its directories lead, one after the other, without a link. The order in which a
directory lists its entries does not matter to that: relisting a tree keeps its files, and keeps the
names of each directory distinct.
-/

namespace HarnessIndex.Files.Entry

variable {entry other : Entry} {entries : List (Text × Entry)}

/-- A file of some size stands under its name, where some directories lead from the root of a
tree. -/
inductive Holds : Entry → (directories : List Text) → (name : Text) → (size : Nat) → Prop where
  | here {entries : List (Text × Entry)} {name : Text} {entry : Entry} {size : Nat} :
      (name, entry) ∈ entries → entry.size? = some size → Holds (directory entries) [] name size
  | there {entries : List (Text × Entry)} {directory : Text} {entry : Entry}
      {directories : List Text} {name : Text} {size : Nat} :
      (directory, entry) ∈ entries → Holds entry directories name size →
      Holds (.directory entries) (directory :: directories) name size

/-- No directory has two entries of one name. -/
inductive Distinct : Entry → Prop where
  | file (size : Nat) : Distinct (file size)
  | directory {entries : List (Text × Entry)} :
      (entries.map Prod.fst).Nodup → (∀ entry ∈ entries, Distinct entry.2) →
      Distinct (directory entries)
  | linkedDirectory : Distinct linkedDirectory
  | dangling : Distinct dangling

mutual

instance decideDistinct : (entry : Entry) → Decidable entry.Distinct
  | .file size => isTrue (.file size)
  | .directory entries =>
      have := decideDistinctAll entries
      decidable_of_iff ((entries.map Prod.fst).Nodup ∧ ∀ entry ∈ entries, Distinct entry.2)
        ⟨fun both => .directory both.1 both.2, fun distinct => by
          cases distinct with
          | directory nodup each => exact ⟨nodup, each⟩⟩
  | .linkedDirectory => isTrue .linkedDirectory
  | .dangling => isTrue .dangling

def decideDistinctAll : (entries : List (Text × Entry)) →
    Decidable (∀ entry ∈ entries, Distinct entry.2)
  | [] => isTrue (List.forall_mem_nil _)
  | (_, entry) :: rest =>
      have := decideDistinct entry
      have := decideDistinctAll rest
      decidable_of_iff (entry.Distinct ∧ ∀ entry ∈ rest, Distinct entry.2)
        (by rw [List.forall_mem_cons])

end

/-- The same tree, where some of its directories list their entries in another order. -/
inductive Relisted : Entry → Entry → Prop where
  | same (entry : Entry) : Relisted entry entry
  | order {entries relisted : List (Text × Entry)} :
      entries.Perm relisted → Relisted (directory entries) (directory relisted)
  | inside {front back : List (Text × Entry)} {name : Text} {entry relisted : Entry} :
      Relisted entry relisted →
      Relisted (directory (front ++ (name, entry) :: back))
        (directory (front ++ (name, relisted) :: back))
  | trans {entry between relisted : Entry} :
      Relisted entry between → Relisted between relisted → Relisted entry relisted

mutual

/-- What holds of a directory when it holds of all its entries, and of what is no directory, holds
of every entry. -/
@[elab_as_elim] theorem induct {motive : Entry → Prop}
    (directory : ∀ entries : List (Text × Entry), (∀ entry ∈ entries, motive entry.2) →
      motive (.directory entries))
    (leaf : ∀ entry : Entry, (∀ entries, entry ≠ .directory entries) → motive entry) :
    (entry : Entry) → motive entry
  | .directory entries => directory entries (inductAll directory leaf entries)
  | .file size => leaf (.file size) nofun
  | .linkedDirectory => leaf .linkedDirectory nofun
  | .dangling => leaf .dangling nofun

theorem inductAll {motive : Entry → Prop}
    (directory : ∀ entries : List (Text × Entry), (∀ entry ∈ entries, motive entry.2) →
      motive (.directory entries))
    (leaf : ∀ entry : Entry, (∀ entries, entry ≠ .directory entries) → motive entry) :
    (entries : List (Text × Entry)) → ∀ entry ∈ entries, motive entry.2
  | [] => List.forall_mem_nil _
  | (_, entry) :: rest =>
      List.forall_mem_cons.mpr ⟨induct directory leaf entry, inductAll directory leaf rest⟩

end

theorem not_holds_of_leaf (leaf : ∀ entries, entry ≠ directory entries) (directories : List Text)
    (name : Text) (size : Nat) : ¬ entry.Holds directories name size := by
  intro holds
  cases holds with
  | here _ _ => exact leaf _ rfl
  | there _ _ => exact leaf _ rfl

theorem holds_nil {name : Text} {size : Nat} :
    (directory entries).Holds [] name size ↔
      ∃ entry, (name, entry) ∈ entries ∧ entry.size? = some size := by
  constructor
  · intro holds
    cases holds with
    | here member file => exact ⟨_, member, file⟩
  · rintro ⟨entry, member, file⟩
    exact .here member file

theorem holds_cons {first name : Text} {directories : List Text} {size : Nat} :
    (directory entries).Holds (first :: directories) name size ↔
      ∃ entry, (first, entry) ∈ entries ∧ entry.Holds directories name size := by
  constructor
  · intro holds
    cases holds with
    | there member holds => exact ⟨_, member, holds⟩
  · rintro ⟨entry, member, holds⟩
    exact .there member holds

namespace Relisted

theorem size?_eq (relisted : entry.Relisted other) : other.size? = entry.size? := by
  induction relisted with
  | same entry => rfl
  | order _ => rfl
  | inside _ _ => rfl
  | trans _ _ first second => exact second.trans first

/-- Relisting keeps the files of a tree. -/
theorem holds_iff (relisted : entry.Relisted other) {directories : List Text} {name : Text}
    {size : Nat} : other.Holds directories name size ↔ entry.Holds directories name size := by
  induction relisted generalizing directories with
  | same entry => rfl
  | order perm =>
      cases directories with
      | nil => simp only [holds_nil, perm.mem_iff]
      | cons first directories => simp only [holds_cons, perm.mem_iff]
  | inside relisted ih =>
      cases directories with
      | nil => simp [holds_nil, or_and_right, exists_or, and_assoc, relisted.size?_eq]
      | cons first directories => simp [holds_cons, or_and_right, exists_or, and_assoc, ih]
  | trans _ _ first second => exact second.trans first

theorem distinct (relisted : entry.Relisted other) (distinct : entry.Distinct) :
    other.Distinct := by
  induction relisted with
  | same entry => exact distinct
  | order perm =>
      cases distinct with
      | directory nodup each =>
          refine .directory ((perm.map Prod.fst).nodup_iff.mp nodup) ?_
          intro entry member
          exact each entry (perm.mem_iff.mpr member)
  | inside relisted ih =>
      cases distinct with
      | directory nodup each =>
          simp only [List.forall_mem_append, List.forall_mem_cons] at each
          obtain ⟨before, inner, after⟩ := each
          refine .directory (by simpa using nodup) ?_
          simp only [List.forall_mem_append, List.forall_mem_cons]
          exact ⟨before, ih inner, after⟩
  | trans _ _ first second => exact second (first distinct)

end Relisted

end HarnessIndex.Files.Entry

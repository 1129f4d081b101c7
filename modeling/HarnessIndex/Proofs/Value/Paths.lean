import HarnessIndex.Proofs.Value.Merge

/-!
# Merging path by path

A path of keys leads through nested records to a value. A value of the upper side that is no record
stands in the merge at its path. One of the base is kept where the upper side sets nothing, neither
at its path nor by a value that ends the way to it. No other value that is no record occurs in a
merge. What has been merged over a record once changes nothing when it is merged again.
-/

namespace HarnessIndex.Value

variable {base upper value leaf : Value} {entries : List (Text × Value)} {key : Text}
  {path : List Text}

/-! ## Nested records -/

def isRecord : Value → Bool
  | record _ => true
  | _ => false

/-- No key occurs twice in a record, nor in a record that is reached from it by keys. -/
inductive WellKeyed : Value → Prop where
  | record {entries : List (Text × Value)} : (Assoc.keys entries).Nodup →
      (∀ key value, (key, value) ∈ entries → WellKeyed value) → WellKeyed (.record entries)
  | plain {value : Value} : value.isRecord = false → WellKeyed value

namespace WellKeyed

theorem distinct (wellKeyed : (Value.record entries).WellKeyed) : (Assoc.keys entries).Nodup := by
  cases wellKeyed with
  | record distinct _ => exact distinct
  | plain plain => cases plain

theorem inner (wellKeyed : (Value.record entries).WellKeyed)
    (found : Assoc.get? key entries = some value) : value.WellKeyed := by
  cases wellKeyed with
  | record _ inner => exact inner key value (Assoc.mem_of_get? found)
  | plain plain => cases plain

end WellKeyed

/-- The value at a path of keys. -/
def at? (value : Value) : List Text → Option Value
  | [] => some value
  | key :: path => (value.field? key).bind fun inner => inner.at? path

@[simp] theorem at?_nil (value : Value) : value.at? [] = some value := rfl

@[simp] theorem at?_record_cons (entries : List (Text × Value)) (key : Text) (path : List Text) :
    (record entries).at? (key :: path) =
      (Assoc.get? key entries).bind fun inner => inner.at? path := rfl

/-- No key leads on from a value that is no record. -/
theorem at?_cons_of_plain (plain : value.isRecord = false) (key : Text) (path : List Text) :
    value.at? (key :: path) = none := by
  cases value with
  | record _ => cases plain
  | _ => rfl

/-- A value sets nothing at a path: it has no value there, and the values that it has on the way
there are records. -/
structure SetsNothingAt (value : Value) (path : List Text) : Prop where
  absent : value.at? path = none
  records : ∀ front, front <+: path → front ≠ path → ∀ held, value.at? front = some held →
    held.isRecord = true

theorem not_setsNothingAt_nil : ¬value.SetsNothingAt [] :=
  fun nothing => nomatch nothing.absent

theorem SetsNothingAt.isRecord (nothing : value.SetsNothingAt path) : value.isRecord = true := by
  refine nothing.records [] List.nil_prefix ?_ value rfl
  rintro rfl
  exact not_setsNothingAt_nil nothing

/-- A record sets nothing at a path when the value of the first key sets nothing at the rest. -/
theorem setsNothingAt_cons :
    (record entries).SetsNothingAt (key :: path) ↔
      ∀ inner, Assoc.get? key entries = some inner → inner.SetsNothingAt path := by
  constructor
  · intro nothing inner found
    refine ⟨?_, ?_⟩
    · have absent := nothing.absent
      rw [at?_record_cons, found] at absent
      exact absent
    · intro front before shorter held stands
      refine nothing.records (key :: front) (List.prefix_cons_inj key |>.mpr before) ?_ held ?_
      · exact fun same => shorter (List.cons.inj same).2
      · rw [at?_record_cons, found]
        exact stands
  · intro below
    refine ⟨?_, ?_⟩
    · rw [at?_record_cons, Option.bind_eq_none_iff]
      exact fun inner found => (below inner found).absent
    · intro front before shorter held stands
      cases front with
      | nil =>
          obtain rfl := Option.some.inj stands
          rfl
      | cons first front =>
          obtain ⟨rfl, inside⟩ := List.cons_prefix_cons.mp before
          obtain ⟨inner, found, stands⟩ := Option.bind_eq_some_iff.mp stands
          refine (below inner found).records front inside ?_ held stands
          exact fun same => shorter (same ▸ rfl)

/-! ## What stands at a path of a merge -/

/-- A value that is no record replaces what it is merged over. -/
theorem mergeOver_of_plain_upper (plain : upper.isRecord = false) (base : Value) :
    mergeOver base upper = upper := by
  rw [mergeOver]
  rintro entries rfl
  cases plain

/-- A value that is no record is replaced by what is merged over it. -/
theorem mergeOver_of_plain_base (plain : base.isRecord = false) (upper : Value) :
    mergeOver base upper = upper := by
  cases upper with
  | record entries =>
      rw [mergeOver]
      rintro entries rfl
      cases plain
  | _ => exact mergeOver_of_plain_upper rfl base

/-- Two records are merged by their entries, and otherwise the upper side stands for both. -/
theorem mergeOver_cases (base upper : Value) :
    (base.isRecord = false ∨ upper.isRecord = false) ∧ mergeOver base upper = upper ∨
      ∃ lower higher, base = .record lower ∧ upper = .record higher ∧
        mergeOver base upper = .record (mergeEntries lower higher) := by
  cases base with
  | record lower =>
      cases upper with
      | record higher => exact Or.inr ⟨lower, higher, rfl, rfl, mergeOver_records lower higher⟩
      | _ => exact Or.inl ⟨Or.inr rfl, mergeOver_of_plain_upper rfl _⟩
  | _ => exact Or.inl ⟨Or.inl rfl, mergeOver_of_plain_base rfl upper⟩

/-- A merge gives a value that is no record only when that is the upper side. -/
theorem mergeOver_eq_iff_of_plain (plain : leaf.isRecord = false) :
    mergeOver base upper = leaf ↔ upper = leaf := by
  rcases mergeOver_cases base upper with ⟨-, merged⟩ | ⟨lower, higher, -, rfl, merged⟩
  · rw [merged]
  · rw [merged]
    constructor <;> rintro rfl <;> cases plain

/-- Where one of the sides is no record, the upper side leaves nothing of the base. -/
theorem not_kept_of_plain (plain : base.isRecord = false ∨ upper.isRecord = false) :
    ¬(base.at? path = some leaf ∧ upper.SetsNothingAt path) := by
  rintro ⟨kept, nothing⟩
  rcases plain with lower | higher
  · cases path with
    | nil => exact not_setsNothingAt_nil nothing
    | cons key path =>
        rw [at?_cons_of_plain lower] at kept
        cases kept
  · rw [nothing.isRecord] at higher
    cases higher

/-- A value that is no record stands in a merge when it stands in the upper side, or when it stands
in the base and the upper side sets nothing there. -/
theorem at?_mergeOver_eq_some (wellKeyed : upper.WellKeyed) (plain : leaf.isRecord = false) :
    (mergeOver base upper).at? path = some leaf ↔
      upper.at? path = some leaf ∨ base.at? path = some leaf ∧ upper.SetsNothingAt path := by
  induction path generalizing base upper with
  | nil => simp [not_setsNothingAt_nil, mergeOver_eq_iff_of_plain plain]
  | cons key path ih =>
      rcases mergeOver_cases base upper with ⟨single, merged⟩ | ⟨lower, higher, rfl, rfl, merged⟩
      · rw [merged, or_iff_left (not_kept_of_plain single)]
      · -- The first key leads on from both sides, and there the rest of the path decides.
        rw [merged, at?_record_cons, get?_mergeEntries wellKeyed.distinct, at?_record_cons,
          at?_record_cons, setsNothingAt_cons]
        cases above : Assoc.get? key higher with
        | none => simp
        | some given =>
            cases below : Assoc.get? key lower with
            | none => simp
            | some held => simpa using ih (wellKeyed.inner above)

/-! ## Merging again -/

/-- Entries that change nothing one by one change nothing together. -/
theorem mergeEntries_eq_self {base upper : List (Text × Value)}
    (held : ∀ key value, (key, value) ∈ upper →
      mergeAt (Assoc.get? key base) (some value) = Assoc.get? key base) :
    mergeEntries base upper = base := by
  induction upper with
  | nil => rw [mergeEntries_nil]
  | cons entry rest ih =>
      obtain ⟨value, merged, put⟩ := mergeEntry_eq_put base entry
      have kept : mergeEntry base entry = base := by
        rw [put]
        apply Assoc.put_eq_self
        rw [← held entry.1 entry.2 List.mem_cons_self, merged]
      rw [mergeEntries_cons, kept]
      exact ih fun key value member => held key value (List.mem_cons_of_mem entry member)

/-- A record that is merged over a value gives a record, where each of its keys holds the value that
it gives the key, merged over something. -/
theorem exists_record_mergeOver (distinct : (Assoc.keys entries).Nodup) (base : Value) :
    ∃ merged, mergeOver base (.record entries) = .record merged ∧
      ∀ key value, (key, value) ∈ entries →
        ∃ below, Assoc.get? key merged = mergeAt below (some value) := by
  have found {key : Text} {value : Value} (member : (key, value) ∈ entries) :
      Assoc.get? key entries = some value :=
    (Assoc.get?_eq_some distinct).mpr member
  rcases mergeOver_cases base (.record entries) with ⟨-, merged⟩ | ⟨lower, higher, -, same, merged⟩
  · exact ⟨entries, merged, fun key value member => ⟨none, found member⟩⟩
  · cases same
    refine ⟨_, merged, fun key value member => ⟨Assoc.get? key lower, ?_⟩⟩
    rw [get?_mergeEntries distinct, found member]

/-- If merging a value again changes nothing, it changes nothing at a key either. -/
theorem mergeAt_again (again : ∀ base, mergeOver (mergeOver base upper) upper = mergeOver base upper)
    (base : Option Value) :
    mergeAt (mergeAt base (some upper)) (some upper) = mergeAt base (some upper) := by
  cases base with
  | none =>
      have replaced : mergeOver .null upper = upper := mergeOver_of_plain_base rfl upper
      have same := again .null
      rw [replaced] at same
      rw [mergeAt_none_left, mergeAt_some, same]
  | some base => rw [mergeAt_some, mergeAt_some, again]

/-- What has been merged over a value once changes nothing when it is merged again. -/
theorem mergeOver_again (wellKeyed : upper.WellKeyed) (base : Value) :
    mergeOver (mergeOver base upper) upper = mergeOver base upper := by
  induction wellKeyed generalizing base with
  | plain plain => rw [mergeOver_of_plain_upper plain, mergeOver_of_plain_upper plain]
  | @record entries distinct _ ih =>
      -- Each key holds something that its value has been merged over, so again it changes nothing.
      obtain ⟨merged, joined, holds⟩ := exists_record_mergeOver distinct base
      rw [joined, mergeOver_records]
      refine congrArg Value.record (mergeEntries_eq_self ?_)
      intro key value member
      obtain ⟨below, found⟩ := holds key value member
      rw [found, mergeAt_again (ih key value member)]

/-- Records without a repeated key are merged to a record without one. -/
theorem WellKeyed.merge (lower : base.WellKeyed) (higher : upper.WellKeyed) :
    (mergeOver base upper).WellKeyed := by
  induction higher generalizing base with
  | plain plain =>
      rw [mergeOver_of_plain_upper plain]
      exact .plain plain
  | @record entries distinct inner ih =>
      rcases mergeOver_cases base (.record entries) with
        ⟨-, merged⟩ | ⟨held, given, rfl, same, merged⟩
      · rw [merged]
        exact .record distinct inner
      · cases same
        have unrepeated := nodup_keys_mergeEntries lower.distinct entries
        rw [merged]
        refine .record unrepeated fun key value member => ?_
        have found := (Assoc.get?_eq_some unrepeated).mpr member
        rw [get?_mergeEntries distinct] at found
        cases above : Assoc.get? key entries with
        | none =>
            rw [above, mergeAt_none_right] at found
            exact lower.inner found
        | some upper =>
            have known := Assoc.mem_of_get? above
            cases below : Assoc.get? key held with
            | none =>
                rw [above, below, mergeAt_none_left] at found
                exact Option.some.inj found ▸ inner key upper known
            | some base =>
                rw [above, below, mergeAt_some] at found
                exact Option.some.inj found ▸ ih key upper known (lower.inner below)

/-! ## Merging records -/

/-- Records are merged path by path. A value that is no record stands in the merge where the upper
side has it, and where the base has it and the upper side sets nothing, and nowhere else. The merge
repeats no key when neither side does, and merging the upper side again changes nothing. -/
theorem merge_pathwise {base upper : List (Text × Value)}
    (wellKeyed : (record upper).WellKeyed) :
    (∀ path leaf, leaf.isRecord = false →
      ((record (mergeEntries base upper)).at? path = some leaf ↔
        (record upper).at? path = some leaf ∨
          (record base).at? path = some leaf ∧ (record upper).SetsNothingAt path)) ∧
    ((record base).WellKeyed → (record (mergeEntries base upper)).WellKeyed) ∧
    mergeEntries (mergeEntries base upper) upper = mergeEntries base upper := by
  refine ⟨?_, ?_, ?_⟩
  · intro path leaf plain
    rw [← mergeOver_records]
    exact at?_mergeOver_eq_some wellKeyed plain
  · intro lower
    rw [← mergeOver_records]
    exact lower.merge wellKeyed
  · have again := mergeOver_again wellKeyed (.record base)
    rw [mergeOver_records, mergeOver_records] at again
    exact record.inj again

/-- Two sections and a plain entry. -/
def lowerSections : List (Text × Value) :=
  [("scan", record [("size", int 10), ("names", list [text "target"])]), ("level", int 1),
    ("log", record [("file", text "a")])]

/-- A section that sets one of two entries, an empty section over a plain entry, and a plain entry
over a section. -/
def upperSections : List (Text × Value) :=
  [("scan", record [("size", int 20)]), ("level", record []), ("log", bool false)]

/-- Two sections are merged entry by entry, and a section and a plain entry replace each other. -/
theorem merge_pathwise_sections :
    (record upperSections).WellKeyed ∧
    (record (mergeEntries lowerSections upperSections)).at? ["scan", "size"] = some (int 20) ∧
    (record (mergeEntries lowerSections upperSections)).at? ["scan", "names"] =
      some (list [text "target"]) ∧
    (record (mergeEntries lowerSections upperSections)).at? ["level"] ≠ some (int 1) ∧
    (record (mergeEntries lowerSections upperSections)).at? ["log", "file"] ≠ some (text "a") ∧
    mergeEntries (mergeEntries lowerSections upperSections) upperSections =
      mergeEntries lowerSections upperSections := by
  have wellKeyed : (record upperSections).WellKeyed := by
    refine .record (by decide) fun key value member => ?_
    simp only [upperSections, List.mem_cons, Prod.mk.injEq, List.not_mem_nil, or_false] at member
    rcases member with ⟨-, rfl⟩ | ⟨-, rfl⟩ | ⟨-, rfl⟩
    · refine .record (by decide) fun key value member => .plain ?_
      rw [(Prod.mk.inj (List.mem_singleton.mp member)).2]
      rfl
    · exact .record (by decide) (by simp)
    · exact .plain rfl
  obtain ⟨decided, -, again⟩ := @merge_pathwise lowerSections upperSections wellKeyed
  have unnamed : (record upperSections).SetsNothingAt ["scan", "names"] := by
    rw [upperSections, setsNothingAt_cons]
    rintro inner ⟨⟩
    rw [setsNothingAt_cons]
    rintro inner ⟨⟩
  refine ⟨wellKeyed, (decided _ _ rfl).mpr (Or.inl rfl),
    (decided _ _ rfl).mpr (Or.inr ⟨rfl, unnamed⟩), fun kept => ?_, fun kept => ?_, again⟩
  · rcases (decided _ _ rfl).mp kept with set | ⟨-, nothing⟩
    · cases set
    · cases nothing.absent
  · rcases (decided _ _ rfl).mp kept with set | ⟨-, nothing⟩
    · cases set
    · cases nothing.records ["log"] (by decide) (by decide) _ rfl

end HarnessIndex.Value

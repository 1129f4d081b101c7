import HarnessIndex.Files.Discovery
import HarnessIndex.Proofs.Files.Tree
import HarnessIndex.Proofs.Ordered
import Mathlib.Data.Char
import Mathlib.Data.List.Lex
import Mathlib.Data.Prod.Lex

/-!
# What a search comes to

A search comes to the files of a tree that its settings ask for and to no others, to each of them
once, in the order of their directories and in one directory by name. So the order in which
directories list their entries does not show in what it comes to.
-/

namespace HarnessIndex

theorem Text.precedes_iff_le {left right : Text} : precedes left right = true ↔ left ≤ right := by
  induction left generalizing right with
  | nil =>
      refine iff_of_true (precedes_nil right) ?_
      cases right with
      | nil => exact le_rfl
      | cons d right => exact le_of_lt (List.nil_lt_cons d right)
  | cons c left ih =>
      cases right with
      | nil => simp [precedes]
      | cons d right =>
          rw [le_iff_lt_or_eq, List.cons_lt_cons_iff]
          simp [precedes, ih, Char.lt_def, UInt32.lt_iff_toNat_lt, le_iff_lt_or_eq, and_or_left,
            or_assoc]

namespace Files

open Settings

variable {scan : Scan} {above : List Text} {entry : Entry} {entries : List (Text × Entry)}

/-! ## The order of a search -/

/-- Whether some names come before others in a search: by the directories that lead there, a
directory before those inside it, and in one directory by name. -/
def ComesBefore (first second : List Text) : Prop :=
  first.dropLast < second.dropLast ∨ first.dropLast = second.dropLast ∧ first < second

theorem comesBefore_iff {first second : List Text} :
    ComesBefore first second ↔ toLex (first.dropLast, first) < toLex (second.dropLast, second) := by
  rw [Prod.Lex.toLex_lt_toLex, ComesBefore]

theorem comesBefore_irrefl (names : List Text) : ¬ ComesBefore names names := by
  rw [comesBefore_iff]
  exact lt_irrefl _

theorem ComesBefore.asymm {first second : List Text} (before : ComesBefore first second) :
    ¬ ComesBefore second first := by
  rw [comesBefore_iff] at *
  exact lt_asymm before

theorem comesBefore_of_name {first second : Text} (less : first < second) :
    ComesBefore (above ++ [first]) (above ++ [second]) := by
  refine .inr ⟨by simp, List.append_left_lt (List.cons_lt_cons_iff.mpr (.inl less))⟩

/-- The files of a directory come before those of its subdirectories. -/
theorem comesBefore_of_below (file directory name : Text) (directories : List Text) :
    ComesBefore (above ++ [file]) (above ++ directory :: directories ++ [name]) := by
  refine .inl ?_
  rw [List.dropLast_concat, List.dropLast_concat]
  nth_rewrite 1 [← List.append_nil above]
  exact List.append_left_lt (List.nil_lt_cons _ _)

/-- The files of subdirectories come by the names of the subdirectories. -/
theorem comesBefore_of_directory {first second : Text} (less : first < second)
    (directories others : List Text) (name other : Text) :
    ComesBefore (above ++ first :: directories ++ [name])
      (above ++ second :: others ++ [other]) := by
  refine .inl ?_
  rw [List.dropLast_concat, List.dropLast_concat]
  exact List.append_left_lt (List.cons_lt_cons_iff.mpr (.inl less))

/-! ## Sorting by name -/

section ByName

variable {α : Type} (named : List (Text × α))

theorem byName_eq :
    byName named = named.insertionSort fun left right => left.1 ≤ right.1 := by
  rw [← Stable.sort_eq_insertionSort, byName]
  congr 1
  funext left right
  rw [Bool.eq_iff_iff, decide_eq_true_iff, Text.precedes_iff_le]

theorem perm_byName : (byName named).Perm named := by
  rw [byName_eq]
  exact List.perm_insertionSort _ named

theorem pairwise_byName (nodup : (named.map Prod.fst).Nodup) :
    (byName named).Pairwise fun left right => left.1 < right.1 := by
  have total : Std.Total fun left right : Text × α => left.1 ≤ right.1 :=
    ⟨fun left right => le_total left.1 right.1⟩
  have trans : IsTrans (Text × α) fun left right => left.1 ≤ right.1 :=
    ⟨fun _ _ _ => le_trans⟩
  have sorted := List.pairwise_insertionSort (fun left right : Text × α => left.1 ≤ right.1) named
  rw [← byName_eq] at sorted
  have different : (byName named).Pairwise fun left right => left.1 ≠ right.1 := by
    rw [← List.pairwise_map]
    exact ((perm_byName named).map Prod.fst).nodup_iff.mpr nodup
  refine (sorted.and different).imp ?_
  rintro left right ⟨le, ne⟩
  exact lt_of_le_of_ne le ne

end ByName

/-! ## Findings and the files they are about -/

def Finding.names : Finding → List Text
  | source names => names
  | tooLarge names _ => names

theorem finding?_eq_some {name : Text} {size : Nat} {finding : Finding} :
    finding? scan above (name, size) = some finding ↔ isSourceName scan name = true ∧
      finding = if sizeLimit scan < size then .tooLarge (above ++ [name]) size
        else .source (above ++ [name]) := by
  rw [finding?]
  cases isSourceName scan name with
  | false => simp
  | true => by_cases large : sizeLimit scan < size <;> simp [large, eq_comm]

theorem names_of_finding? {name : Text} {size : Nat} {finding : Finding}
    (found : finding? scan above (name, size) = some finding) :
    finding.names = above ++ [name] := by
  rw [(finding?_eq_some.mp found).2]
  split <;> rfl

theorem mem_sizes {name : Text} {size : Nat} :
    (name, size) ∈ sizes entries ↔ ∃ entry, (name, entry) ∈ entries ∧ entry.size? = some size := by
  simp [sizes]

theorem sublist_sizes (entries : List (Text × Entry)) :
    ((sizes entries).map Prod.fst).Sublist (entries.map Prod.fst) := by
  induction entries with
  | nil => exact List.nil_sublist _
  | cons entry rest ih =>
      rw [sizes, List.filterMap_cons]
      cases entry.2.size? with
      | none => exact ih.cons entry.1
      | some size => exact ih.cons_cons entry.1

theorem inSubdirectories_eq (scan : Scan) (above : List Text) (entries : List (Text × Entry)) :
    inSubdirectories scan above entries =
      (entries.filter fun entry => isEntered scan entry.1).map fun entry =>
        (entry.1, findings scan (above ++ [entry.1]) entry.2) := by
  induction entries with
  | nil => rw [inSubdirectories]; rfl
  | cons entry rest ih =>
      obtain ⟨name, entry⟩ := entry
      rw [inSubdirectories, ih]
      cases entered : isEntered scan name <;> simp [entered]

theorem mem_inSubdirectories {group : Text × List Finding} :
    group ∈ inSubdirectories scan above entries ↔
      ∃ name entry, (name, entry) ∈ entries ∧ isEntered scan name = true ∧
        group = (name, findings scan (above ++ [name]) entry) := by
  rw [inSubdirectories_eq, List.mem_map]
  constructor
  · rintro ⟨⟨name, entry⟩, kept, rfl⟩
    obtain ⟨member, entered⟩ := List.mem_filter.mp kept
    exact ⟨name, entry, member, entered, rfl⟩
  · rintro ⟨name, entry, member, entered, rfl⟩
    exact ⟨(name, entry), List.mem_filter.mpr ⟨member, entered⟩, rfl⟩

theorem sublist_inSubdirectories (scan : Scan) (above : List Text)
    (entries : List (Text × Entry)) :
    ((inSubdirectories scan above entries).map Prod.fst).Sublist (entries.map Prod.fst) := by
  rw [inSubdirectories_eq, List.map_map]
  exact List.filter_sublist.map Prod.fst

/-! ## What a search comes to, and in which order -/

/-- A search comes to what it makes of the files that are reached through directories which it
enters. -/
theorem mem_findings {finding : Finding} :
    finding ∈ findings scan above entry ↔
      ∃ directories name size, entry.Holds directories name size ∧
        (∀ directory ∈ directories, isEntered scan directory = true) ∧
        finding? scan (above ++ directories) (name, size) = some finding := by
  induction entry using Entry.induct generalizing above with
  | directory entries ih =>
      rw [findings, List.mem_append, amongFiles, List.mem_filterMap, List.mem_flatMap]
      simp only [(perm_byName _).mem_iff]
      constructor
      · rintro (⟨⟨name, size⟩, member, found⟩ | ⟨group, member, found⟩)
        · exact ⟨[], name, size, Entry.holds_nil.mpr (mem_sizes.mp member), by simp,
            by rwa [List.append_nil]⟩
        · obtain ⟨first, entry, known, entered, rfl⟩ := mem_inSubdirectories.mp member
          obtain ⟨directories, name, size, holds, others, found⟩ :=
            (ih (first, entry) known).mp found
          rw [List.append_assoc, List.singleton_append] at found
          exact ⟨first :: directories, name, size, Entry.holds_cons.mpr ⟨entry, known, holds⟩,
            List.forall_mem_cons.mpr ⟨entered, others⟩, found⟩
      · rintro ⟨directories, name, size, holds, entered, found⟩
        cases directories with
        | nil =>
            rw [List.append_nil] at found
            exact .inl ⟨(name, size), mem_sizes.mpr (Entry.holds_nil.mp holds), found⟩
        | cons first directories =>
            obtain ⟨entry, member, holds⟩ := Entry.holds_cons.mp holds
            obtain ⟨here, others⟩ := List.forall_mem_cons.mp entered
            refine .inr ⟨_, mem_inSubdirectories.mpr ⟨first, entry, member, here, rfl⟩, ?_⟩
            refine (ih _ member).mpr ⟨directories, name, size, holds, others, ?_⟩
            rwa [List.append_assoc, List.singleton_append]
  | leaf entry leaf =>
      rw [findings]
      · refine iff_of_false List.not_mem_nil ?_
        rintro ⟨directories, name, size, holds, -⟩
        exact Entry.not_holds_of_leaf leaf directories name size holds
      · exact leaf

/-- The names that lead to a finding in a subdirectory go through it. -/
theorem exists_names_below {first : Text} {finding : Finding}
    (member : finding ∈ findings scan (above ++ [first]) entry) :
    ∃ directories name, finding.names = above ++ first :: directories ++ [name] := by
  obtain ⟨directories, name, size, -, -, found⟩ := mem_findings.mp member
  refine ⟨directories, name, ?_⟩
  rw [names_of_finding? found, List.append_assoc above, List.singleton_append]

theorem pairwise_findings (distinct : entry.Distinct) :
    (findings scan above entry).Pairwise fun first second =>
      ComesBefore first.names second.names := by
  induction entry using Entry.induct generalizing above with
  | directory entries ih =>
      cases distinct with
      | directory nodup each =>
          rw [findings, List.pairwise_append, List.pairwise_flatMap]
          refine ⟨?_, ⟨?_, ?_⟩, ?_⟩
          · rw [amongFiles, List.pairwise_filterMap]
            refine (pairwise_byName _ ((sublist_sizes entries).nodup nodup)).imp ?_
            intro file other less finding found later found'
            rw [names_of_finding? found, names_of_finding? found']
            exact comesBefore_of_name less
          · intro group member
            obtain ⟨name, entry, known, -, rfl⟩ :=
              mem_inSubdirectories.mp ((perm_byName _).mem_iff.mp member)
            exact ih (name, entry) known (each (name, entry) known)
          · have nodup := (sublist_inSubdirectories scan above entries).nodup nodup
            refine (pairwise_byName _ nodup).imp_of_mem ?_
            intro group other member member' less finding found later found'
            obtain ⟨name, entry, -, -, rfl⟩ :=
              mem_inSubdirectories.mp ((perm_byName _).mem_iff.mp member)
            obtain ⟨name', entry', -, -, rfl⟩ :=
              mem_inSubdirectories.mp ((perm_byName _).mem_iff.mp member')
            obtain ⟨directories, file, names⟩ := exists_names_below found
            obtain ⟨directories', file', names'⟩ := exists_names_below found'
            rw [names, names']
            exact comesBefore_of_directory less directories directories' file file'
          · intro finding found later found'
            obtain ⟨file, -, found⟩ := List.mem_filterMap.mp found
            obtain ⟨group, member, found'⟩ := List.mem_flatMap.mp found'
            obtain ⟨name, entry, -, -, rfl⟩ :=
              mem_inSubdirectories.mp ((perm_byName _).mem_iff.mp member)
            obtain ⟨directories, other, names⟩ := exists_names_below found'
            rw [names_of_finding? found, names]
            exact comesBefore_of_below file.1 name other directories
  | leaf entry leaf =>
      rw [findings]
      · exact .nil
      · exact leaf

/-- Relisting a tree does not change what a search comes to. -/
theorem search_relisted {tree relisted : Entry} (distinct : tree.Distinct)
    (same : tree.Relisted relisted) : search scan relisted = search scan tree := by
  have irrefl : Std.Irrefl fun first second : Finding => ComesBefore first.names second.names :=
    ⟨fun finding => comesBefore_irrefl finding.names⟩
  have antisymm : Std.Antisymm fun first second : Finding =>
      ComesBefore first.names second.names :=
    ⟨fun _ _ before after => absurd after before.asymm⟩
  refine (pairwise_findings (same.distinct distinct)).eq_of_mem_iff (pairwise_findings distinct) ?_
  intro finding
  simp only [search, mem_findings, same.holds_iff]

/-! ## Sources and files that are too large -/

/-- A file is a source by the end of its name, when none of the directories that lead to it is
excluded or hidden. -/
structure IsSource (scan : Scan) (directories : List Text) (name : Text) : Prop where
  suffix : ∃ suffix ∈ scan.extensions, suffix <:+ name
  entered : ∀ directory ∈ directories, directory ∉ scan.excludeDirs ∧ ¬ ['.'] <+: directory

theorem isSource_iff {directories : List Text} {name : Text} :
    IsSource scan directories name ↔ isSourceName scan name = true ∧
      ∀ directory ∈ directories, isEntered scan directory = true := by
  have bySuffix : isSourceName scan name = true ↔ ∃ suffix ∈ scan.extensions, suffix <:+ name := by
    simp [isSourceName, Text.endsWith]
  have byName (directory : Text) : isEntered scan directory = true ↔
      directory ∉ scan.excludeDirs ∧ ¬ ['.'] <+: directory := by
    simp [isEntered, Text.startsWith, ← Bool.not_eq_true]
  simp only [bySuffix, byName]
  exact ⟨fun source => ⟨source.suffix, source.entered⟩, fun both => ⟨both.1, both.2⟩⟩

/-- The names that lead to a source. -/
def Finding.source? : Finding → Option (List Text)
  | source names => some names
  | tooLarge _ _ => none

/-- The names that lead to a file that is too large, and its size. -/
def Finding.tooLarge? : Finding → Option (List Text × Nat)
  | source _ => none
  | tooLarge names size => some (names, size)

theorem sources_eq (root : Path) (scan : Scan) (tree : Entry) :
    sources root scan tree = ((search scan tree).filterMap Finding.source?).map (below root) := by
  rw [sources, List.map_filterMap]
  congr 1
  funext finding
  cases finding <;> rfl

theorem reports_eq (root : Path) (scan : Scan) (tree : Entry) :
    reports root scan tree = ((search scan tree).filterMap Finding.tooLarge?).map fun file =>
      .fileSkippedTooLarge (below root file.1).toText file.2 (sizeLimit scan) := by
  rw [reports, List.map_filterMap]
  congr 1
  funext finding
  cases finding <;> rfl

theorem le_sizeLimit (positive : 0 < scan.maxFileSizeKb) {size : Nat} :
    size ≤ sizeLimit scan ↔ (size : Int) ≤ scan.maxFileSizeKb * 1024 := by
  rw [sizeLimit]
  omega

theorem sizeLimit_lt (positive : 0 < scan.maxFileSizeKb) {size : Nat} :
    sizeLimit scan < size ↔ scan.maxFileSizeKb * 1024 < size := by
  rw [← not_le, le_sizeLimit positive, not_le]

/-- A search comes to each source, and says of it whether it is too large. -/
theorem mem_search {tree : Entry} {finding : Finding} :
    finding ∈ search scan tree ↔ ∃ directories name size, tree.Holds directories name size ∧
      IsSource scan directories name ∧
        finding = if sizeLimit scan < size then .tooLarge (directories ++ [name]) size
          else .source (directories ++ [name]) := by
  simp only [search, mem_findings, finding?_eq_some, isSource_iff, List.nil_append]
  refine exists_congr fun directories => exists_congr fun name => exists_congr fun size => ?_
  tauto

theorem mem_sources (positive : 0 < scan.maxFileSizeKb) {tree : Entry} {names : List Text} :
    names ∈ (search scan tree).filterMap Finding.source? ↔
      ∃ directories name size, names = directories ++ [name] ∧ tree.Holds directories name size ∧
        IsSource scan directories name ∧ (size : Int) ≤ scan.maxFileSizeKb * 1024 := by
  simp only [List.mem_filterMap, mem_search, ← le_sizeLimit positive]
  constructor
  · rintro ⟨finding, ⟨directories, name, size, holds, source, same⟩, found⟩
    split at same
    · rw [same] at found
      cases found
    · rename_i small
      rw [same] at found
      cases found
      exact ⟨directories, name, size, rfl, holds, source, Nat.le_of_not_lt small⟩
  · rintro ⟨directories, name, size, rfl, holds, source, small⟩
    refine ⟨_, ⟨directories, name, size, holds, source, rfl⟩, ?_⟩
    rw [if_neg (Nat.not_lt_of_le small)]
    rfl

theorem mem_tooLarge (positive : 0 < scan.maxFileSizeKb) {tree : Entry} {names : List Text}
    {size : Nat} :
    (names, size) ∈ (search scan tree).filterMap Finding.tooLarge? ↔
      ∃ directories name, names = directories ++ [name] ∧ tree.Holds directories name size ∧
        IsSource scan directories name ∧ scan.maxFileSizeKb * 1024 < size := by
  simp only [List.mem_filterMap, mem_search, ← sizeLimit_lt positive]
  constructor
  · rintro ⟨finding, ⟨directories, name, other, holds, source, same⟩, found⟩
    split at same
    · rename_i large
      rw [same] at found
      cases found
      exact ⟨directories, name, rfl, holds, source, large⟩
    · rw [same] at found
      cases found
  · rintro ⟨directories, name, rfl, holds, source, large⟩
    refine ⟨_, ⟨directories, name, size, holds, source, rfl⟩, ?_⟩
    rw [if_pos large]
    rfl

/-- What is read off the findings of a search stays in their order. -/
theorem pairwise_filterMap_search {tree : Entry} (distinct : tree.Distinct) {α : Type}
    {read : Finding → Option α} (names : α → List Text)
    (keeps : ∀ finding result, read finding = some result → names result = finding.names) :
    ((search scan tree).filterMap read).Pairwise fun first second =>
      ComesBefore (names first) (names second) := by
  rw [List.pairwise_filterMap]
  refine (pairwise_findings distinct).imp ?_
  intro finding finding' before result found result' found'
  rw [keeps finding result found, keeps finding' result' found']
  exact before

theorem below_eq (root : Path) (names : List Text) :
    below root names = ⟨root.slashes, root.parts ++ names⟩ := by
  induction names generalizing root with
  | nil => simp [below]
  | cons name names ih =>
      rw [below, List.foldl_cons, ← below, ih, Path.child]
      simp

theorem below_injective (root : Path) : Function.Injective (below root) := by
  intro first second same
  rw [below_eq, below_eq, Path.mk.injEq] at same
  exact List.append_cancel_left same.2

/-- A search of a directory tree comes to each file that is a source and not too large, once, in the
order of the directories and in one directory by name; it reports each source that is too large,
once; and relisting the tree changes neither. -/
theorem search_exact {scan : Scan} (positive : 0 < scan.maxFileSizeKb) {tree : Entry}
    (distinct : tree.Distinct) (root : Path) :
    (∃ found : List (List Text), sources root scan tree = found.map (below root) ∧
        found.Pairwise ComesBefore ∧
        ∀ names, names ∈ found ↔ ∃ directories name size, names = directories ++ [name] ∧
          tree.Holds directories name size ∧ IsSource scan directories name ∧
            (size : Int) ≤ scan.maxFileSizeKb * 1024) ∧
      (sources root scan tree).Nodup ∧
      (∃ skipped : List (List Text × Nat),
        reports root scan tree = skipped.map (fun file =>
          .fileSkippedTooLarge (below root file.1).toText file.2 (sizeLimit scan)) ∧
        (skipped.Pairwise fun file later => ComesBefore file.1 later.1) ∧
        ∀ names size, (names, size) ∈ skipped ↔ ∃ directories name, names = directories ++ [name] ∧
          tree.Holds directories name size ∧ IsSource scan directories name ∧
            scan.maxFileSizeKb * 1024 < size) ∧
      ∀ relisted, tree.Relisted relisted →
        sources root scan relisted = sources root scan tree ∧
          reports root scan relisted = reports root scan tree := by
  have inOrder : ((search scan tree).filterMap Finding.source?).Pairwise ComesBefore := by
    apply pairwise_filterMap_search distinct id
    intro finding names found
    cases finding <;> cases found
    rfl
  refine ⟨⟨_, sources_eq root scan tree, inOrder, fun names => mem_sources positive⟩, ?_,
    ⟨_, reports_eq root scan tree, ?_, fun names size => mem_tooLarge positive⟩, ?_⟩
  · rw [sources_eq]
    refine List.Nodup.map (below_injective root) (inOrder.imp ?_)
    rintro names _ before rfl
    exact comesBefore_irrefl names before
  · apply pairwise_filterMap_search distinct Prod.fst
    intro finding file found
    cases finding <;> cases found
    rfl
  · intro relisted same
    rw [sources, reports, search_relisted distinct same]
    exact ⟨rfl, rfl⟩

/-- What stands in the root of a tree, unsorted: sources, among them one that is too large, an
excluded and a hidden directory, a link to a directory and one that leads nowhere. -/
def rootEntries : List (Text × Entry) :=
  [("z.rs", .file 5), (".git", .directory [("a.rs", .file 1)]),
    ("src", .directory [("b.rs", .file 1025), ("a.rs", .file 1024),
      ("in", .directory [("c.rs", .file 0)]), ("target", .directory [("d.rs", .file 1)])]),
    ("a.rs", .file 7), ("a.md", .file 7), ("link", .linkedDirectory), ("gone.rs", .dangling)]

/-- Settings with a limit of one kilobyte. -/
def smallSources : Scan :=
  ⟨1, [".rs"], ["target"]⟩

theorem search_exact_reversed :
    0 < smallSources.maxFileSizeKb ∧ (Entry.directory rootEntries).Distinct ∧
      sources (.ofText ".") smallSources (.directory rootEntries) =
        [.ofText "a.rs", .ofText "z.rs", .ofText "src/a.rs", .ofText "src/in/c.rs"] ∧
      (sources (.ofText ".") smallSources (.directory rootEntries)).Nodup ∧
      (Entry.directory rootEntries).Relisted (.directory rootEntries.reverse) ∧
      sources (.ofText ".") smallSources (.directory rootEntries.reverse) =
        sources (.ofText ".") smallSources (.directory rootEntries) ∧
      reports (.ofText ".") smallSources (.directory rootEntries.reverse) =
        [.fileSkippedTooLarge "src/b.rs" 1025 1024] := by
  have positive : 0 < smallSources.maxFileSizeKb := by decide
  have distinct : (Entry.directory rootEntries).Distinct := by decide
  have relisted : (Entry.directory rootEntries).Relisted (.directory rootEntries.reverse) :=
    .order rootEntries.reverse_perm.symm
  obtain ⟨-, nodup, -, same⟩ := search_exact positive distinct (.ofText ".")
  refine ⟨positive, distinct, ?_, nodup, relisted, (same _ relisted).1, ?_⟩
  · decide +kernel
  · rw [(same _ relisted).2]
    decide +kernel

end Files

end HarnessIndex

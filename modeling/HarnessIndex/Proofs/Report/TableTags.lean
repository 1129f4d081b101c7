import HarnessIndex.Proofs.Report.Showing
import HarnessIndex.Report.Drawing

/-!
# The tags in the table of harnesses

The table writes tags of its own: yellow around an attribute that is not understood, magenta around
the kind of a unit test. The texts of attributes are escaped one by one, so they bring no tags in by
themselves; but a tag that one of them opens can be closed by a later one when their badges are
joined. Names and titles are not escaped. Where no tag comes in, the table can be drawn.
-/

namespace HarnessIndex.Report

open Markup Markup.Reading Emoji
open Attribute (Descriptor)
open Harness (Metadata Index)

def badgeTags (descriptor : Descriptor) : List Text :=
  if descriptor.supported then [] else ["yellow", "/yellow"]

def kindTags : Harness.Kind → List Text
  | .proof => []
  | .unitTest => ["magenta", "/magenta"]

/-- The tags that the table writes itself in the row of a harness, cell by cell. -/
def rowTags (withReplays : Bool) (harness : Metadata) : List (List Text) :=
  [[], [], kindTags harness.kind, harness.attributes.flatMap badgeTags] ++
    if withReplays then [[]] else []

/-- The tags in the title and in the cells of a table are those that the table writes itself. -/
structure OwnTagsOnly (harnesses : Index) (replays : Option Replay.Groups)
    (title : Option Text) : Prop where
  inTitle : ∀ text ∈ title, tags text = []
  inRows : ((harnessTable harnesses replays title).rows.map fun row => row.map tags) =
    harnesses.map fun entry => rowTags replays.isSome entry.2

/-- The first attribute whose text has a bracket closes a tag, and all up to it are understood. -/
inductive Closed : List Descriptor → Prop where
  | here {descriptor : Descriptor} {rest : List Descriptor} :
      descriptor.supported = true → ClosesTag descriptor.text → Closed (descriptor :: rest)
  | later {descriptor : Descriptor} {rest : List Descriptor} :
      descriptor.supported = true → NoBracket descriptor.text → Closed rest →
      Closed (descriptor :: rest)

/-- An attribute that is understood leaves a tag open, and a later one closes it. -/
inductive Meet : List Descriptor → Prop where
  | here {descriptor : Descriptor} {rest : List Descriptor} :
      descriptor.supported = true → OpensTag descriptor.text → Closed rest →
      Meet (descriptor :: rest)
  | later {descriptor : Descriptor} {rest : List Descriptor} :
      Meet rest → Meet (descriptor :: rest)

/-! ## The badges of a harness -/

/-- The cell of the attributes of a harness. -/
def badges (attributes : List Descriptor) : Text :=
  Text.join " " (attributes.map badge)

/-- What stands behind a badge when more of them follow. -/
def behind : List Descriptor → Text
  | [] => []
  | rest => ' ' :: badges rest

variable {descriptor : Descriptor} {rest attributes : List Descriptor}

@[simp] theorem badges_nil : badges [] = [] := rfl

@[simp] theorem behind_nil : behind [] = [] := rfl

@[simp] theorem behind_cons :
    behind (descriptor :: rest) = ' ' :: badges (descriptor :: rest) := rfl

theorem badges_cons : badges (descriptor :: rest) = badge descriptor ++ behind rest := by
  rcases rest with _ | ⟨next, rest⟩
  · exact (List.append_nil _).symm
  · exact List.append_assoc _ _ _

theorem badge_supported (supported : descriptor.supported = true) :
    badge descriptor = escape descriptor.text := by
  rw [badge, if_pos supported]

theorem badge_unsupported (unsupported : descriptor.supported = false) (rest : Text) :
    badge descriptor ++ rest =
      '[' :: ("yellow" ++ ']' :: (escape descriptor.text ++
        '?' :: '[' :: ("/yellow" ++ ']' :: rest))) := by
  rw [badge, if_neg (by simp [unsupported])]
  simp [tagged]

theorem tags_behind (rest : List Descriptor) : tags (behind rest) = tags (badges rest) := by
  rcases rest with _ | ⟨next, rest⟩
  · rfl
  · exact tags_cons (by decide) (by decide) _

/-! ### What badges close and leave open -/

/-- Badges close a tag if the first bracket in the texts of attributes closes it. -/
theorem closesTag_badges : ClosesTag (badges attributes) ↔ Closed attributes := by
  induction attributes with
  | nil => exact ⟨fun closes => absurd closes not_closesTag_nil, nofun⟩
  | cons descriptor rest ih =>
      have closesBehind : ClosesTag (behind rest) ↔ Closed rest := by
        rw [← ih]
        rcases rest with _ | ⟨next, rest⟩
        · rfl
        · simp
      rw [badges_cons]
      cases supported : descriptor.supported with
      | false =>
          rw [badge_unsupported supported]
          constructor
          · intro closes
            simp at closes
          · rintro (⟨understood, -⟩ | ⟨understood, -⟩) <;> simp [supported] at understood
      | true =>
          rw [badge_supported supported, closesTag_append, closesBehind, closesTag_escape,
            noBracket_escape]
          constructor
          · rintro (closes | ⟨plain, closed⟩)
            · exact .here supported closes
            · exact .later supported plain closed
          · rintro (⟨-, closes⟩ | ⟨-, plain, closed⟩)
            · exact .inl closes
            · exact .inr ⟨plain, closed⟩

/-! ### The tags of badges -/

/-- The tag that an attribute opens and one of the others closes. -/
def junction (descriptor : Descriptor) (rest : List Descriptor) : Option Text :=
  if descriptor.supported then
    closing? (start.after (escape descriptor.text)).inside (behind rest)
  else none

theorem junction_ne_none : junction descriptor rest ≠ none ↔
    descriptor.supported = true ∧ OpensTag descriptor.text ∧ Closed rest := by
  rw [junction]
  split
  case isTrue supported =>
    rcases rest with _ | ⟨next, rest⟩
    · rw [behind_nil, ← closesTag_badges]
      simp [closing?, badges]
    · rw [behind_cons, closing?_behind_escape, closesTag_badges]
      simp [supported]
  case isFalse unsupported => simp [unsupported]

theorem tags_badges_cons :
    tags (badges (descriptor :: rest)) =
      badgeTags descriptor ++ (junction descriptor rest).toList ++ tags (badges rest) := by
  rw [badges_cons, junction, badgeTags, ← tags_behind]
  cases supported : descriptor.supported with
  | false =>
      rw [badge_unsupported supported, tags_tag (by decide),
        tags_escape_append (by decide) (by decide), tags_tag (by decide)]
      simp [closing?]
  | true =>
      rw [badge_supported supported]
      rcases rest with _ | ⟨next, rest⟩
      · simp [closing?]
      · rw [tags_behind, behind_cons, tags_escape_append (by decide) (by decide)]
        rfl

theorem meet_cons : Meet (descriptor :: rest) ↔ junction descriptor rest ≠ none ∨ Meet rest := by
  rw [junction_ne_none]
  constructor
  · rintro (⟨supported, opens, closed⟩ | meet)
    · exact .inl ⟨supported, opens, closed⟩
    · exact .inr meet
  · rintro (⟨supported, opens, closed⟩ | meet)
    · exact .here supported opens closed
    · exact .later meet

theorem badgeTags_sublist (attributes : List Descriptor) :
    (attributes.flatMap badgeTags).Sublist (tags (badges attributes)) := by
  induction attributes with
  | nil => exact List.Sublist.refl _
  | cons descriptor rest ih =>
      rw [List.flatMap_cons, tags_badges_cons, List.append_assoc]
      exact (List.Sublist.refl _).append (ih.trans (List.sublist_append_right _ _))

/-- No other tags come in exactly when attributes do not meet. -/
theorem tags_badges_iff :
    tags (badges attributes) = attributes.flatMap badgeTags ↔ ¬ Meet attributes := by
  induction attributes with
  | nil => exact ⟨fun _ => nofun, fun _ => rfl⟩
  | cons descriptor rest ih =>
      rw [List.flatMap_cons, tags_badges_cons, List.append_assoc, List.append_cancel_left_eq,
        meet_cons, not_or, not_ne_iff, ← ih]
      constructor
      · intro same
        -- the table's own tags are all there, so one more makes the list too long
        have atLeast := (badgeTags_sublist rest).length_le
        have shut : junction descriptor rest = none := by
          rw [← Option.toList_eq_nil_iff, ← List.length_eq_zero_iff]
          have lengths := congrArg List.length same
          rw [List.length_append] at lengths
          omega
        rw [shut] at same
        exact ⟨shut, same⟩
      · rintro ⟨shut, same⟩
        rw [shut, same]
        rfl

/-! ### What badges show -/

/-- What the badge of an attribute shows. -/
def shownBadge (descriptor : Descriptor) : Text :=
  descriptor.text ++ if descriptor.supported then [] else ['?']

theorem strippedFrom_badge (tidy : Tidy descriptor.text) (shut : junction descriptor rest = none) :
    strippedFrom 0 (badge descriptor ++ behind rest) =
      shownBadge descriptor ++ strippedFrom 0 (behind rest) := by
  rw [junction] at shut
  rw [shownBadge]
  cases supported : descriptor.supported with
  | false =>
      rw [badge_unsupported supported, stripped_tag (by decide),
        strippedFrom_escape tidy (by simp; decide) (by simp [closing?]),
        strippedFrom_plain (by decide) (by decide), stripped_tag (by decide)]
      simp
  | true =>
      rw [if_pos supported] at shut
      have calm : ∀ c ∈ (behind rest).head?, c ≠ Text.backslash ∧ c ≠ '[' := by
        rcases rest with _ | ⟨next, rest⟩
        · simp
        · simp
          decide
      rw [badge_supported supported, strippedFrom_escape tidy calm shut]
      simp

/-- Badges show the texts of the attributes where none of them meet. -/
theorem strippedFrom_badges (apart : ¬ Meet attributes)
    (tidy : ∀ descriptor ∈ attributes, Tidy descriptor.text) :
    strippedFrom 0 (badges attributes) = Text.join " " (attributes.map shownBadge) := by
  induction attributes with
  | nil => rfl
  | cons descriptor rest ih =>
      rw [meet_cons, not_or, not_ne_iff] at apart
      rw [List.forall_mem_cons] at tidy
      have later := ih apart.2 tidy.2
      rw [badges_cons, strippedFrom_badge tidy.1 apart.1]
      rcases rest with _ | ⟨next, rest⟩
      · simp
      · rw [behind_cons, strippedFrom_plain (by decide) (by decide), later]
        simp

/-! ## The whole table -/

variable {dialect : Dialect}

/-- A tag of the table itself is closed by the one that follows it. -/
theorem renderPieces_own {name : Text} (own : name ∈ (["yellow", "magenta"] : List Text))
    (opened : List Text) (rest : List Piece) :
    renderPieces dialect opened (.tag name :: .tag ('/' :: name) :: rest) =
      renderPieces dialect opened rest := by
  have closes : dialect.close? name (name :: opened) = some opened := by
    rcases List.mem_pair.mp own with rfl | rfl <;> exact close?_cons rfl rfl
  have step : renderPieces dialect opened (.tag name :: .tag ('/' :: name) :: rest) =
      dialect.close? name (name :: opened) >>= (renderPieces dialect · rest) := by
    rcases List.mem_pair.mp own with rfl | rfl <;> rfl
  rw [step, closes]
  rfl

theorem matched_kindTags (kind : Harness.Kind) : Matched dialect (kindTags kind) := by
  cases kind with
  | proof => exact matched_nil
  | unitTest =>
      have pair := @renderPieces_own dialect "magenta" (by decide) [] []
      exact congrArg Option.isSome pair

theorem matched_badgeTags (attributes : List Descriptor) :
    Matched dialect (attributes.flatMap badgeTags) := by
  induction attributes with
  | nil => exact matched_nil
  | cons descriptor rest ih =>
      rw [List.flatMap_cons, badgeTags]
      split
      case isTrue => exact ih
      case isFalse =>
        have pair := @renderPieces_own dialect "yellow" (by decide) []
          ((rest.flatMap badgeTags).map .tag)
        exact (congrArg Option.isSome pair).trans ih

theorem matched_of_mem_rowTags {withReplays : Bool} {harness : Metadata} {insides : List Text}
    (member : insides ∈ rowTags withReplays harness) : Matched dialect insides := by
  have last : insides ∈ (if withReplays then [[]] else [] : List (List Text)) → insides = [] := by
    split <;> simp
  simp only [rowTags, List.cons_append, List.nil_append, List.mem_cons] at member
  obtain rfl | rfl | rfl | rfl | member := member
  · exact matched_nil
  · exact matched_nil
  · exact matched_kindTags _
  · exact matched_badgeTags _
  · exact last member ▸ matched_nil

theorem notMem_ofNat {c : Char} (other : c.isDigit = false) (n : Nat) : c ∉ Text.ofNat n := by
  intro member
  rw [Nat.isDigit_of_mem_toDigits (by decide) (by decide) member] at other
  cases other

theorem tags_ofNat (n : Nat) : tags (Text.ofNat n) = [] :=
  tags_noBracket ⟨notMem_ofNat (by decide) n, notMem_ofNat (by decide) n⟩

theorem tags_kindCell (kind : Harness.Kind) : tags (kindCell kind) = kindTags kind := by
  cases kind <;> decide

theorem isSome_mapM {α β : Type} {f : α → Option β} {entries : List α}
    (each : ∀ entry ∈ entries, (f entry).isSome) : (entries.mapM f).isSome := by
  induction entries with
  | nil => rfl
  | cons entry rest ih =>
      rw [List.forall_mem_cons] at each
      obtain ⟨value, found⟩ := Option.isSome_iff_exists.mp each.1
      obtain ⟨values, others⟩ := Option.isSome_iff_exists.mp (ih each.2)
      rw [List.mapM_cons, found, others]
      rfl

theorem isSome_shown {text : Text} (renders : (render dialect text).isSome) :
    (shown dialect text).isSome := by
  rwa [shown, Option.isSome_map]

theorem isSome_titleLines (size : Nat) {title : Option Text}
    (renders : ∀ text ∈ title, (render dialect text).isSome) :
    (titleLines dialect size title).isSome := by
  cases title with
  | none => rfl
  | some text =>
      rw [titleLines]
      split
      · rfl
      · rw [Option.isSome_map]
        exact isSome_shown (renders text rfl)

/-- A table is drawn if the tags of all its texts match. -/
theorem isSome_draw {table : Table}
    (headers : ∀ column ∈ table.columns, (render dialect column.1).isSome)
    (cells : ∀ row ∈ table.rows, ∀ cell ∈ row, (render dialect cell).isSome)
    (title : ∀ text ∈ table.title, (render dialect text).isSome) : (draw dialect table).isSome := by
  have headersShown : ((table.columns.map Prod.fst).mapM (shown dialect)).isSome :=
    isSome_mapM (List.forall_mem_map.mpr fun column member => isSome_shown (headers column member))
  have cellsShown : (table.rows.mapM fun row : List Text => row.mapM (shown dialect)).isSome :=
    isSome_mapM fun row member =>
      isSome_mapM fun cell within => isSome_shown (cells row member cell within)
  obtain ⟨shownHeaders, headersShown⟩ := Option.isSome_iff_exists.mp headersShown
  obtain ⟨shownCells, cellsShown⟩ := Option.isSome_iff_exists.mp cellsShown
  rw [draw, headersShown, cellsShown]
  simp only [Option.bind_eq_bind, Option.bind_some]
  obtain ⟨lines, titleShown⟩ := Option.isSome_iff_exists.mp (isSome_titleLines _ title)
  rw [titleShown]
  rfl

theorem isSome_render_header {withReplays : Bool} {column : Text × Side}
    (member : column ∈ harnessColumns withReplays) : (render dialect column.1).isSome := by
  have untagged : tags column.1 = [] := by
    cases withReplays <;> revert column <;> decide
  exact isSome_render (untagged ▸ matched_nil)

theorem map_tags_harnessRow (replays : Option Replay.Groups) (harness : Metadata) :
    (harnessRow replays harness).map tags = rowTags replays.isSome harness ↔
      ¬ HasTag harness.qualifiedName ∧ ¬ Meet harness.attributes := by
  rw [← tags_badges_iff, ← tags_eq_nil_iff]
  cases replays with
  | none => simp [harnessRow, rowTags, tags_ofNat, tags_kindCell, badges]
  | some groups => simp [harnessRow, rowTags, tags_ofNat, tags_kindCell, badges]

/-- No tag but those of the table itself comes in exactly when the title and the names have none and
no attributes meet. -/
theorem ownTagsOnly_iff {harnesses : Index} {replays : Option Replay.Groups} {title : Option Text} :
    OwnTagsOnly harnesses replays title ↔
      (∀ text ∈ title, ¬ HasTag text) ∧
        ∀ entry ∈ harnesses, ¬ HasTag entry.2.qualifiedName ∧ ¬ Meet entry.2.attributes := by
  have rows : ((harnessTable harnesses replays title).rows.map fun row => row.map tags) =
      (harnesses.map fun entry => rowTags replays.isSome entry.2) ↔
      ∀ entry ∈ harnesses, ¬ HasTag entry.2.qualifiedName ∧ ¬ Meet entry.2.attributes := by
    rw [harnessTable, List.map_map, List.map_inj_left]
    exact forall₂_congr fun entry _ => map_tags_harnessRow replays entry.2
  rw [← rows]
  simp only [← tags_eq_nil_iff]
  exact ⟨fun own => ⟨own.inTitle, own.inRows⟩, fun own => ⟨own.1, own.2⟩⟩

/-- What the cell of a kind shows. -/
def shownKind : Harness.Kind → Text
  | .proof => "proof"
  | .unitTest => "unit test"

/-- What the row of a harness is to show: its texts as they are. -/
def shownRow (replays : Option Replay.Groups) (harness : Metadata) : List Text :=
  [Text.ofNat harness.startLine, harness.qualifiedName, shownKind harness.kind,
    Text.join " " (harness.attributes.map shownBadge)] ++
  match replays with
  | some groups => [Text.ofNat (replayCount groups harness)]
  | none => []

/-- No backslash in the texts of a harness can be lost or doubled when they are shown. -/
structure HasTidyTexts (harness : Metadata) : Prop where
  name : ¬ [Text.backslash, '['] <:+: harness.qualifiedName
  attributes : ∀ descriptor ∈ harness.attributes, Tidy descriptor.text

/-- No code of a sign stands in the texts of a harness. -/
structure HasNoSigns (sign? : Text → Option Text) (harness : Metadata) : Prop where
  name : ¬ HasSign sign? harness.qualifiedName
  attributes : ∀ descriptor ∈ harness.attributes, ¬ HasSign sign? descriptor.text

theorem render_ofNat (n : Nat) : render dialect (Text.ofNat n) = some (Text.ofNat n) := by
  refine render_of_tags (tags_ofNat n) (fun found => ?_)
    (not_hasSign_of_no_colon (notMem_ofNat (by decide) n))
  exact notMem_ofNat (by decide) n (found.subset (List.mem_cons_of_mem _ List.mem_cons_self))

theorem render_kindCell (kind : Harness.Kind) :
    render dialect (kindCell kind) = some (shownKind kind) := by
  have matched : Matched dialect (tags (kindCell kind)) :=
    tags_kindCell kind ▸ matched_kindTags kind
  have stripped : strippedFrom 0 (kindCell kind) = shownKind kind := by
    cases kind <;> decide
  rw [render_eq_some matched, stripped]
  rw [stripped]
  apply not_hasSign_of_no_colon
  cases kind <;> decide

theorem hasSign_shownBadge {sign? : Text → Option Text} (has : HasSign sign? (shownBadge descriptor)) :
    HasSign sign? descriptor.text := by
  rw [shownBadge] at has
  split at has
  · rwa [List.append_nil] at has
  · exact hasSign_concat (by decide) has

theorem render_badges (apart : ¬ Meet attributes)
    (tidy : ∀ descriptor ∈ attributes, Tidy descriptor.text)
    (none : ∀ descriptor ∈ attributes, ¬ HasSign dialect.sign? descriptor.text) :
    render dialect (badges attributes) = some (Text.join " " (attributes.map shownBadge)) := by
  have matched : Matched dialect (tags (badges attributes)) :=
    tags_badges_iff.mpr apart ▸ matched_badgeTags attributes
  have stripped := strippedFrom_badges apart tidy
  rw [render_eq_some matched, stripped]
  rw [stripped]
  intro has
  obtain ⟨text, member, has⟩ := hasSign_join has
  obtain ⟨descriptor, within, rfl⟩ := List.mem_map.mp member
  exact none descriptor within (hasSign_shownBadge has)

theorem map_render_harnessRow {harness : Metadata} (untagged : ¬ HasTag harness.qualifiedName)
    (apart : ¬ Meet harness.attributes) (tidy : HasTidyTexts harness)
    (none : HasNoSigns dialect.sign? harness) (replays : Option Replay.Groups) :
    (harnessRow replays harness).map (render dialect) = (shownRow replays harness).map some := by
  have name := render_of_tags (tags_eq_nil_iff.mpr untagged) tidy.name none.name
  have cell : render dialect (Text.join " " (harness.attributes.map badge)) = _ :=
    render_badges apart tidy.attributes none.attributes
  cases replays <;>
    simp only [harnessRow, shownRow, List.map_append, List.map_cons, List.map_nil, render_ofNat,
      render_kindCell, name, cell]

theorem OwnTagsOnly.isSome_draw {harnesses : Index} {replays : Option Replay.Groups}
    {title : Option Text} (own : OwnTagsOnly harnesses replays title) :
    (draw dialect (harnessTable harnesses replays title)).isSome := by
  refine Report.isSome_draw (fun column => isSome_render_header) ?_ ?_
  · intro row member cell within
    have tagsOfRow : row.map tags ∈ harnesses.map fun entry => rowTags replays.isSome entry.2 := by
      rw [← own.inRows]
      exact List.mem_map_of_mem member
    obtain ⟨entry, -, same⟩ := List.mem_map.mp tagsOfRow
    apply isSome_render
    apply matched_of_mem_rowTags
    rw [same]
    exact List.mem_map_of_mem within
  · intro text member
    exact isSome_render (own.inTitle text member ▸ matched_nil)

/-- The title and the cells of the table have no tags but those that the table writes itself exactly
when the title and the qualified names have none and no attributes of a harness meet. Then the table
can be drawn on every terminal, and it shows its texts as they are, but for backslashes in front of
brackets and at the end of attributes, and for codes of emoji that the terminal knows. -/
theorem table_markup (dialect : Dialect) (harnesses : Index) (replays : Option Replay.Groups)
    (title : Option Text) :
    (OwnTagsOnly harnesses replays title ↔
      (∀ text ∈ title, ¬ HasTag text) ∧
        ∀ entry ∈ harnesses, ¬ HasTag entry.2.qualifiedName ∧ ¬ Meet entry.2.attributes) ∧
      (OwnTagsOnly harnesses replays title →
        (draw dialect (harnessTable harnesses replays title)).isSome ∧
        (∀ text ∈ title, ¬ [Text.backslash, '['] <:+: text → ¬ HasSign dialect.sign? text →
          render dialect text = some text) ∧
        ∀ entry ∈ harnesses, HasTidyTexts entry.2 → HasNoSigns dialect.sign? entry.2 →
          (harnessRow replays entry.2).map (render dialect) =
            (shownRow replays entry.2).map some) := by
  refine ⟨ownTagsOnly_iff, fun own => ⟨own.isSome_draw, ?_, ?_⟩⟩
  · exact fun text member plain none => render_of_tags (own.inTitle text member) plain none
  · intro entry member tidy none
    obtain ⟨untagged, apart⟩ := (ownTagsOnly_iff.mp own).2 entry member
    exact map_render_harnessRow untagged apart tidy none replays

/-- The index of a file with one proof that has these attributes. -/
def proofWith (attributes : List Descriptor) : Index :=
  [("f", {
    harnessName := "f", kind := .proof, startLine := 1, endLine := 5, attributes,
    totalProofs := 1, modulePath := [], doc := none, entryPoint := none })]

/-- A harness with a bracket in two attributes, and one between them that is not understood. -/
def crossedHarness : Index :=
  proofWith [.ofName "kani::proof" [] 1, .ofName "kani::unwind" ["\"[a\""] 2, .ofName "cold" [] 3,
    .ofName "kani::solver" ["\"]\""] 4]

/-- A harness whose last attribute closes a tag that the one before it opens. -/
def meetingHarness : Index :=
  proofWith [.ofName "kani::proof" [] 1, .ofName "kani::unwind" ["\"[/a\""] 2,
    .ofName "kani::solver" ["\"]\""] 3]

theorem table_markup_crossed :
    OwnTagsOnly crossedHarness none (some "src/a.rs") ∧
      (draw smiling (harnessTable crossedHarness none (some "src/a.rs"))).isSome ∧
      render smiling "src/a.rs" = some "src/a.rs" ∧
      (crossedHarness.map fun entry => (harnessRow none entry.2).map (render smiling)) =
        [(["1", "f", "proof", "kani::proof kani::unwind(\"[a\") cold? kani::solver(\"]\")"] :
          List Text).map some] := by
  have apart : ∀ entry ∈ crossedHarness,
      ¬ HasTag entry.2.qualifiedName ∧ ¬ Meet entry.2.attributes := by
    simp only [← tags_badges_iff, ← tags_eq_nil_iff]
    decide +kernel
  have plain : ∀ entry ∈ crossedHarness,
      (¬ [Text.backslash, '['] <:+: entry.2.qualifiedName ∧
        ¬ (":smile" : Text) <:+: entry.2.qualifiedName) ∧
      ∀ descriptor ∈ entry.2.attributes, Text.backslash ∉ descriptor.text ∧
        ¬ (":smile" : Text) <:+: descriptor.text := by
    decide +kernel
  obtain ⟨decided, shows⟩ := table_markup smiling crossedHarness none (some "src/a.rs")
  have own := decided.mpr ⟨by simp only [← tags_eq_nil_iff]; decide, apart⟩
  obtain ⟨drawn, title, rows⟩ := shows own
  have verbatim :
      (crossedHarness.map fun entry => (harnessRow none entry.2).map (render smiling)) =
        crossedHarness.map fun entry => (shownRow none entry.2).map some := by
    apply List.map_congr_left
    intro entry member
    obtain ⟨⟨slash, smile⟩, attributes⟩ := plain entry member
    refine rows entry member ⟨slash, fun descriptor within => ?_⟩
      ⟨not_hasSign_smiling smile, fun descriptor within => ?_⟩
    · exact tidy_of_no_backslash (attributes descriptor within).1
    · exact not_hasSign_smiling (attributes descriptor within).2
  exact ⟨own, drawn, title _ rfl (by decide) (not_hasSign_smiling (by decide)),
    by rw [verbatim]; decide +kernel⟩

/-- A title and two attributes that bring tags in which are closed without having been opened, and a
title without tags that is not shown as it is. -/
theorem not_ownTagsOnly :
    ¬ OwnTagsOnly [] none (some "[/a].rs") ∧
      draw smiling (harnessTable [] none (some "[/a].rs")) = none ∧
      ¬ OwnTagsOnly meetingHarness none none ∧
      draw smiling (harnessTable meetingHarness none none) = none ∧
      render smiling ":smile:.rs" ≠ some ":smile:.rs" := by
  refine ⟨?_, by decide +kernel, ?_, by decide +kernel, by decide⟩
  · intro own
    exact absurd (own.inTitle _ rfl) (by decide)
  · intro own
    exact absurd own.inRows (by decide +kernel)

end HarnessIndex.Report
